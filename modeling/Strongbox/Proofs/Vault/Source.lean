import Strongbox.Proofs.Derivation.Document
import Strongbox.Proofs.Json.Source
import Strongbox.Vault.Config

/-!
# Configurations of texts and of bytes

A configuration is read from a text, or from bytes that are checked for being one where it matters.
It makes no difference which: every text, well formed or not, is read from its bytes as it is read
from itself.

## Main results

* `Properties.readsAlike_fields`, `Config.readsAlike_fields`: the values of fields
* `Config.ofBytes_encode`: configurations
-/

namespace Strongbox

open Json

theorem readsAlike_named {α : Type} (ofName : String → Result α) : ReadsAlike (named ofName) :=
  readsAlike_string.refined

namespace Derivation.Properties

theorem readsAlike_fields : ∀ field ∈ schema.fields, ∀ room record,
    ReadsAlike fun source => field.read source room record :=
  forall_fields (fun _ _ set _ record => readsAlike_string.nullable.map (set record))
    fun _ set room record => (readsAlike_natural room).nullable.map (set record)

theorem readsAlike_schema (room : Nat) : ReadsAlike fun source => schema.read source room :=
  Schema.readsAlike readsAlike_fields room

end Derivation.Properties

namespace Vault.Config

open Strongbox.Derivation (Properties)
open Text.Utf8 (encode isText_encode)

theorem readsAlike_fields : ∀ field ∈ schema.fields, ∀ room record,
    ReadsAlike fun source => field.read source room record := by
  intro field hfield room record
  simp only [schema, List.mem_cons, List.not_mem_nil, or_false] at hfield
  rcases hfield with rfl | rfl | rfl
  · exact readsAlike_string.map fun kind => ({ record with kind } : Config)
  · exact (readsAlike_named Codec.ofName).map fun codec => ({ record with codec } : Config)
  · exact (Properties.readsAlike_schema room).nullable.map fun kdf => ({ record with kdf } : Config)

/-- **Texts and their bytes are read alike.** Whatever a text holds, be it a document or not, its
bytes give the configuration that the text gives, or the fault that it gives; and that a string is
no text is never found in the bytes of one. -/
theorem ofBytes_encode (text : String) :
    ofBytes (encode text) = ofJson text ∧
      ofBytes (encode text) ≠ .error (.serialization .invalidCodePoint) := by
  obtain ⟨hdecode, hclean⟩ : Alike (fun _ => True) (schema.decode .bytes (encode text))
      (schema.decode .text (encode text)) :=
    (Schema.readsAlike readsAlike_fields maxNesting).document (isText_encode text)
  refine ⟨by rw [ofBytes, ofJson, hdecode], ?_⟩
  rw [ofBytes, hdecode]
  intro hfault
  cases houtcome : schema.decode .text (encode text) with
  | ok config =>
    rw [houtcome] at hfault
    cases hfault
  | error fault =>
    rw [houtcome] at hfault hclean
    have hcodePoint : fault = .invalidCodePoint := Error.serialization.inj (Except.error.inj hfault)
    exact hclean.ne hcodePoint

end Vault.Config

end Strongbox
