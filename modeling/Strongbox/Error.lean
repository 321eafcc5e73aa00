import Strongbox.Codec.Hex
import Strongbox.Codec.Base64
import Strongbox.Json.Fault
/-!
# Errors

What can go wrong in an operation of the library, as causes; the words are in `Error.message`.

## Main definitions

* `InputFault`, `CodecFault`, `FileFault`: causes of three of the errors
* `Error`: what can go wrong
* `Error.message`: an error in words
-/

namespace Strongbox

/-- A count that a derivation needs and that must not be zero. -/
inductive Count where
  /-- The number of iterations. -/
  | iterations
  /-- The size of a block. -/
  | blockSize
  /-- The number of parallel lanes. -/
  | parallelization
deriving DecidableEq, Repr

/-- The count in words. -/
def Count.describe : Count → String
  | .iterations => "Iterations"
  | .blockSize => "Block size"
  | .parallelization => "Parallelization"

/-- Why an input is refused. -/
inductive InputFault where
  /-- A key of this length is no AES key. -/
  | keyLength (length : Nat)
  /-- An initialization vector of this length is not one block. -/
  | ivLength (length : Nat)
  /-- The password is empty. -/
  | emptyPassword
  /-- A derived key would have no bytes. -/
  | zeroLength
  /-- A derived key would be longer than a length can say. -/
  | lengthTooLarge (length : Nat)
  /-- A count is zero. -/
  | zeroCount (count : Count)
  /-- A cost is not a power of two, or is one. -/
  | cost (n : Nat)
  /-- The parameters of a memory-hard derivation are too large for each other. -/
  | memoryHardParameters
  /-- A memory-hard derivation is asked for no bytes. -/
  | memoryHardLength
  /-- Any other cause. -/
  | other (text : String)
deriving DecidableEq, Repr

/-- The cause in words. -/
def InputFault.message : InputFault → String
  | .keyLength length => "Invalid AES key length: expected 16, 24 or 32, got " ++ toString length
  | .ivLength length => "Invalid IV length: " ++ toString length
  | .emptyPassword => "Password must not be empty"
  | .zeroLength => "Derived key length must be greater than zero"
  | .lengthTooLarge length => "Derived key length " ++ toString length ++ " exceeds 4294967295"
  | .zeroCount count => count.describe ++ " must be greater than zero"
  | .cost n => "scrypt cost must be a power of two greater than 1, got " ++ toString n
  | .memoryHardParameters => "Invalid scrypt parameters: invalid scrypt parameters"
  | .memoryHardLength => "Invalid scrypt output length: invalid output buffer length"
  | .other text => text

/-- Why a text is no encoded byte string. -/
inductive CodecFault where
  /-- It is no hexadecimal. -/
  | hex (fault : Hex.Fault)
  /-- It is no base64. -/
  | base64 (fault : Base64.Fault)
  /-- Any other cause. -/
  | other (text : String)
deriving DecidableEq, Repr

/-- The cause in words. -/
def CodecFault.message : CodecFault → String
  | .hex fault => fault.message
  | .base64 fault => fault.message
  | .other text => text

/-- Why a file cannot be read or written. -/
inductive FileFault where
  /-- There is no such file. -/
  | notFound
  /-- It is a directory. -/
  | isDirectory
  /-- What the path takes for a directory is none. -/
  | notDirectory
  /-- The path, or a name on it, is too long. -/
  | nameTooLong
  /-- The file holds bytes that are no text. -/
  | notText
  /-- Any other cause. -/
  | other (text : String)
deriving DecidableEq, Repr

/-- The cause in words. -/
def FileFault.message : FileFault → String
  | .notFound => "No such file or directory (os error 2)"
  | .isDirectory => "Is a directory (os error 21)"
  | .notDirectory => "Not a directory (os error 20)"
  | .nameTooLong => "File name too long (os error 36)"
  | .notText => "stream did not contain valid UTF-8"
  | .other text => text

/-- What can go wrong. -/
inductive Error where
  /-- A property has a value that is none of its names. -/
  | invalidValue (key value : String)
  /-- A parameter is missing. -/
  | missingParameter (name : String)
  /-- An input is refused. -/
  | invalidInput (fault : InputFault)
  /-- A buffer has less room than is to be written. -/
  | bufferTooShort (required available : Nat)
  /-- A ciphertext cannot be decrypted; which check failed is not told. -/
  | decryptionFailed
  /-- The vault is closed. -/
  | vaultDestroyed
  /-- There is no vault of this type. -/
  | unsupportedType (name : String)
  /-- A text cannot be decoded. -/
  | codec (fault : CodecFault)
  /-- A document cannot be read. -/
  | serialization (fault : Json.Fault)
  /-- A file cannot be read or written. -/
  | file (fault : FileFault)
deriving DecidableEq, Repr

/-- The error in words. -/
def Error.message : Error → String
  | .invalidValue key value => "Invalid value \"" ++ value ++ "\" for " ++ key
  | .missingParameter name => "Missing parameter: " ++ name
  | .invalidInput fault => "Invalid input: " ++ fault.message
  | .bufferTooShort required available =>
    "Buffer too short: " ++ toString required ++ " bytes required, " ++ toString available ++
      " available"
  | .decryptionFailed => "Decryption failed"
  | .vaultDestroyed => "Vault destroyed"
  | .unsupportedType name => "Unsupported vault type: " ++ name
  | .codec fault => "Codec error: " ++ fault.message
  | .serialization fault => "Serialization error: " ++ fault.message
  | .file fault => "I/O error: " ++ fault.message

/-- What an operation that can fail gives. -/
abbrev Result (α : Type) := Except Error α

end Strongbox
