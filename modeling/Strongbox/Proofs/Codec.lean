import Strongbox.Codec
import Strongbox.Proofs.Codec.Base64
import Strongbox.Proofs.Codec.Hex
import Strongbox.Proofs.Text.Ascii

/-!
# Codecs read back

## Main results

* `Codec.decode_encode`: the text of a byte string reads back as it, for both codecs
* `Codec.exists_fault_of_decode`: what stands in the way of reading a text is a fault of the text
-/

namespace Strongbox.Codec

/-- **The text of a byte string reads back as it.** -/
theorem decode_encode (codec : Codec) (data : Bytes) :
    codec.decode (codec.encode data) = .ok data := by
  cases codec with
  | hex =>
    rw [encode, decode, Text.Utf8.encode_ofList_of_ascii fun _ => Hex.toNat_lt_of_mem_encode,
      Hex.decode_encode]
    rfl
  | base64 =>
    rw [encode, decode, Text.Utf8.encode_ofList_of_ascii fun _ => Base64.toNat_lt_of_mem_encode,
      Base64.decode_encode]
    rfl

/-- What stands in the way of reading a text is a fault of the text. -/
theorem exists_fault_of_decode {codec : Codec} {text : String} {error : Error}
    (h : codec.decode text = .error error) : ∃ fault, error = .codec fault := by
  cases codec with
  | hex =>
    rw [decode] at h
    cases hdec : Hex.decode (Text.Utf8.encode text) with
    | ok data => rw [hdec] at h; cases h
    | error fault => rw [hdec] at h; cases h; exact ⟨_, rfl⟩
  | base64 =>
    rw [decode] at h
    cases hdec : Base64.decode (Text.Utf8.encode text) with
    | ok data => rw [hdec] at h; cases h
    | error fault => rw [hdec] at h; cases h; exact ⟨_, rfl⟩

end Strongbox.Codec
