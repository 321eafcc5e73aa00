import Strongbox.Error
import Strongbox.Text.Outline
import Strongbox.Text.Token
/-!
# Kinds of vaults

## Main definitions

* `Vault.Kind`: the kinds of vaults, `Kind.name` and `Kind.ofName`: their names
-/

namespace Strongbox.Vault

/-- A kind of vault. -/
inductive Kind where
  /-- A vault that leaves everything as it is. -/
  | plain
  /-- A vault that encrypts. -/
  | aes
deriving DecidableEq, Repr

namespace Kind

/-- The kinds. -/
def all : List Kind := [.plain, .aes]

/-- The kind used when none is given. -/
def default : Kind := .aes

/-- The name a kind has in documents. -/
def name : Kind → String
  | .plain => "none"
  | .aes => "aes"

/-- The kind of a name as it is typed. -/
def ofName (s : String) : Result Kind :=
  match all.find? (·.name = Text.lowered s) with
  | some kind => .ok kind
  | none => .error (.unsupportedType s)

/-- What is shown of a kind. -/
def outline : Kind → Text.Outline
  | .plain => .word "None"
  | .aes => .word "Aes"

end Kind

end Strongbox.Vault
