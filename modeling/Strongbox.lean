import Strongbox.Bytes
import Strongbox.Text.Blank
import Strongbox.Text.Utf8
import Strongbox.Text.Quoted
import Strongbox.Text.Outline
import Strongbox.Codec.Hex
import Strongbox.Codec.Base64
import Strongbox.Decimal.Shortest
import Strongbox.Json.Text
import Strongbox.Json.Record
import Strongbox.Json.Writer
import Strongbox.Error
import Strongbox.Codec
import Strongbox.Secret
import Strongbox.Derivation.Draft
import Strongbox.Derivation.Kdf
import Strongbox.Naming
import Strongbox.Cipher
import Strongbox.Vault.Draft
import Strongbox.Command.Answer
import Strongbox.Main
import Strongbox.Proofs.Outcome
import Strongbox.Proofs.Cipher
import Strongbox.Proofs.Digest.Engine
import Strongbox.Proofs.Derivation.BytesToKey
import Strongbox.Proofs.Derivation.Length
import Strongbox.Proofs.Derivation.Overwrite
import Strongbox.Proofs.Codec
import Strongbox.Proofs.Vault.Basic
import Strongbox.Proofs.Vault.Run
import Strongbox.Proofs.Vault.RoundTrip
import Strongbox.Proofs.Derivation.Pbkdf2
import Strongbox.Proofs.Derivation.Prefix
import Strongbox.Proofs.Derivation.Scramble
import Strongbox.Proofs.Derivation.Scrypt
import Strongbox.Proofs.Json.Text
import Strongbox.Proofs.Json.Number
import Strongbox.Proofs.Json.Record
import Strongbox.Proofs.Derivation.Properties
import Strongbox.Proofs.Vault.Config
import Strongbox.Proofs.Derivation.Spec
import Strongbox.Proofs.Command.Spec
import Strongbox.Proofs.Codec.Canonical
import Strongbox.Proofs.Command.Files
import Strongbox.Proofs.Command.RoundTrip
import Strongbox.Proofs.Json.Grammar
import Strongbox.Proofs.Json.Walk
import Strongbox.Proofs.Json.Tree
import Strongbox.Proofs.Json.Limits
import Strongbox.Proofs.Json.Sound
import Strongbox.Proofs.Json.Object
import Strongbox.Proofs.Json.Local
import Strongbox.Proofs.Json.Forms
import Strongbox.Proofs.Derivation.Document
import Strongbox.Proofs.Vault.Document
import Strongbox.Proofs.Vault.Draft
import Strongbox.Proofs.Vault.Interchange
import Strongbox.Proofs.Vault.Tampering
import Strongbox.Proofs.Derivation.Forms
import Strongbox.Proofs.Vault.Forms
import Strongbox.Proofs.Derivation.Integers
import Strongbox.Proofs.Vault.Integers
import Strongbox.Proofs.Json.Source
import Strongbox.Proofs.Vault.Source
import Strongbox.Proofs.Settings
import Strongbox.Proofs.Derivation.Draft
import Strongbox.Proofs.Derivation.Settings
import Strongbox.Proofs.Json.Nested
import Strongbox.Proofs.Vault.Nested
import Strongbox.Proofs.Command.Derive
import Strongbox.Proofs.Text.Case
import Strongbox.Proofs.Codec.Digits
import Strongbox.Proofs.Codec.Faults
import Strongbox.Proofs.Naming
import Strongbox.Proofs.Vault.Refusal
import Strongbox.Proofs.Command.Stages
import Strongbox.Proofs.Command.Failure
