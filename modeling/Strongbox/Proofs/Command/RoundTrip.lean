import Strongbox.Proofs.Codec.Canonical
import Strongbox.Proofs.Command.Files
import Strongbox.Proofs.Command.Spec
import Strongbox.Proofs.Outcome
import Strongbox.Proofs.Vault.Config
import Strongbox.Proofs.Vault.Draft
import Strongbox.Proofs.Vault.RoundTrip

/-!
# What one command encrypts another decrypts

A command writes the payload of its input as a text with a line break behind it. A later command
with the same configuration and the same password reads it back, wherever it stands by then, and
whatever blanks came around it on the way: no payload text has a blank in it, and the vault that is
opened does not depend on where vectors are drawn from but for the vectors.

## Main definitions

* `Command.Opens`: the vault that a configuration and a password open
* `Command.readFrom`: what is in a file or in a stream
* `Command.Restores`: what every command decrypts a text to

## Main results

* `Codec.isBlank_of_mem_encode`: no payload text has a blank in it
* `Opens.reopened`: what a vault seals is opened by the one that is opened next
* `Command.decrypt_of_encrypt`: what was encrypted is decrypted
-/

namespace Strongbox

open Text (isBlank)
open Text.Utf8 (encode)

/-! ## Payload texts are not blank -/

/-- No payload text has a blank in it. -/
theorem Codec.isBlank_of_mem_encode {codec : Codec} {data : Bytes} {c : Char}
    (h : c ∈ (codec.encode data).toList) : isBlank c = false := by
  cases codec with
  | hex =>
    have hdigit : ∀ value < 16, isBlank (Hex.digit value) = false := by decide
    rw [encode, String.toList_ofList] at h
    obtain ⟨b, -, hc⟩ := List.mem_flatMap.mp h
    have hb := b.toNat_lt
    rw [Hex.pair, List.mem_cons, List.mem_singleton] at hc
    rcases hc with rfl | rfl
    · exact hdigit _ (by omega)
    · exact hdigit _ (by omega)
  | base64 =>
    have hsymbol : ∀ value < 64, isBlank (Base64.symbol value) = false := by decide
    obtain ⟨values, n, hpadded, hlt, -⟩ := Base64.exists_padded_eq_encode data
    rw [encode, String.toList_ofList, hpadded, Base64.padded, List.mem_append] at h
    rcases h with h | h
    · obtain ⟨value, hvalue, rfl⟩ := List.mem_map.mp h
      exact hsymbol value (hlt value hvalue)
    · rw [List.eq_of_mem_replicate h]
      rfl

/-- Blanks around a payload text do not hide it. -/
theorem Codec.trim_encode (codec : Codec) (data : Bytes) {before after : String}
    (hbefore : ∀ c ∈ before.toList, isBlank c = true)
    (hafter : ∀ c ∈ after.toList, isBlank c = true) :
    Text.trim (before ++ codec.encode data ++ after) = codec.encode data := by
  rw [Text.trim, String.toList_append, String.toList_append, Text.trimChars_append_blank hafter,
    Text.trimChars_blank_append hbefore,
    Text.trimChars_eq_self fun _ => Codec.isBlank_of_mem_encode, String.ofList_toList]

namespace Command

open Vault (Config Draft)
open Strongbox.Derivation (Properties Spec)

/-! ## Vaults that are opened again -/

/-- The vault that a configuration and a password open; vectors are drawn from `random`. -/
def Opens (config : Config) (password : String) (random : Random) (vault : Vault) : Prop :=
  ∃ draft, Draft.ofConfig config = .ok draft ∧
    Draft.build random { draft with password := some (.ofText password) } = .ok vault

namespace Opens

variable {config : Config} {password : String} {random : Random} {vault : Vault}

/-- The codec of a vault is that of its configuration. -/
theorem codec_eq (h : Opens config password random vault) : vault.codec = config.codec := by
  obtain ⟨draft, hdraft, hbuild⟩ := h
  rw [← Draft.codec_of_ofConfig hdraft]
  rcases Draft.build_eq_ok_iff.mp hbuild with ⟨-, rfl⟩ | ⟨-, _, _, a, -, -, hopen, rfl⟩
  · rfl
  · exact (AesVault.eq_of_open hopen).2.1

/-- **What a vault seals is opened by the one that is opened next**, wherever its vectors come
from. -/
theorem reopened (h : Opens config password random vault) (random' : Random) :
    ∃ vault', Opens config password random' vault' ∧
      ∀ data payload next, vault.encrypt data = .ok (payload, next) →
        vault'.decrypt payload = .ok data := by
  obtain ⟨draft, hdraft, hbuild⟩ := h
  rcases Draft.build_eq_ok_iff.mp hbuild with
    ⟨hkind, rfl⟩ | ⟨hkind, password', kdf, a, hpassword, hkdf, hopen, rfl⟩
  · refine ⟨.plain draft.codec, ⟨draft, hdraft, Draft.build_eq_ok_iff.mpr (.inl ⟨hkind, rfl⟩)⟩, ?_⟩
    intro data payload next hencrypt
    cases hencrypt
    rfl
  · obtain ⟨rfl, -, -, hpasswordA⟩ := AesVault.eq_of_open hopen
    obtain ⟨b, hopen'⟩ := AesVault.exists_open (AesVault.isEmpty_of_open hopen) a.keyLength_mem
      draft.codec (draft.random.getD random')
    obtain ⟨hkdfB, -, -, hpasswordB⟩ := AesVault.eq_of_open hopen'
    refine ⟨.aes b, ⟨draft, hdraft, Draft.build_eq_ok_iff.mpr
      (.inr ⟨hkind, password', a.kdf, b, hpassword, hkdf, hopen', rfl⟩)⟩, ?_⟩
    intro data payload next hencrypt
    obtain ⟨payload', next', hseal, -, hdecrypt⟩ :=
      AesVault.decrypt_encrypt hpasswordA hpasswordB hkdfB.symm data
    rw [Vault.encrypt, hseal] at hencrypt
    cases hencrypt
    exact hdecrypt

end Opens

/-- An encrypting vault that a configuration opens has the derivation of its properties. -/
theorem opens_iff_open {config : Config} {p : Properties} {spec : Spec} {kdf : Kdf}
    {password : String} {random : Random} {vault : Vault}
    (hkind : Text.lowered config.kind = Vault.Kind.aes.name) (hp : config.kdf = some p)
    (hspec : Spec.ofProperties p = .ok spec) (hkdf : spec.kdf = .ok kdf) :
    Opens config password random vault ↔
      ∃ a, AesVault.open kdf (.ofText password) config.codec random = .ok a ∧ .aes a = vault := by
  have hdraft : Draft.ofConfig config =
      .ok { kind := .aes, kdf := some kdf, codec := config.codec } := by
    rw [Draft.ofConfig_of_spec hkind hp hspec]
    exact bind_eq_ok_iff.mpr ⟨_, rfl, bind_eq_ok_iff.mpr
      ⟨_, Draft.setSpec_eq_ok_iff.mpr ⟨kdf, hkdf, rfl⟩, rfl⟩⟩
  rw [Opens, hdraft]
  simp only [Except.ok.injEq, exists_eq_left']
  rw [Draft.build_of_some rfl rfl rfl, map_eq_ok_iff]
  rfl

/-- A configuration of a derivation that can run opens a vault, if the keys have the length of an
AES key and the password is not empty. -/
theorem exists_opens {spec : Spec} {kdf : Kdf} {password : String}
    (hkdf : spec.kdf = .ok kdf) (hlen : spec.keyLength.val ∈ [16, 24, 32])
    (hpassword : (Password.ofText password).isEmpty = false) (random : Random) :
    ∃ vault, Opens (.aes (.ofSpec spec)) password random (.aes vault) ∧
      vault.password = some (.ofText password) := by
  obtain rfl := Spec.spec_of_kdf hkdf
  let config : Config := .aes (.ofSpec kdf.spec)
  obtain ⟨vault, hopen⟩ := AesVault.exists_open hpassword hlen config.codec random
  have hkind : Text.lowered config.kind = Vault.Kind.aes.name := by
    have hname : Text.lowered Vault.Kind.default.name = Vault.Kind.aes.name := by decide +kernel
    exact hname
  have hp : config.kdf = some (.ofSpec kdf.spec) := rfl
  refine ⟨vault, ?_, (AesVault.eq_of_open hopen).2.2.2⟩
  exact (opens_iff_open hkind hp kdf.spec.ofProperties_ofSpec hkdf).mpr ⟨vault, hopen, rfl⟩

/-! ## The parts of a command -/

section

variable {around : Surroundings}

theorem outcome_within {α : Type} {reason : String} {run : Journal Error α} {a : α} :
    (within reason run).outcome = .ok a ↔ run.outcome = .ok a :=
  mapError_eq_ok_iff

theorem outcome_readFile {path : String} {data : Bytes} :
    (around.readFile path).outcome = .ok data ↔ around.read path = .ok data := by
  rw [Surroundings.readFile]
  split
  · next hread => rw [hread, Journal.outcome_pure, Except.ok.injEq, Except.ok.injEq]
  · next hread =>
    rw [hread]
    constructor
    · intro h
      cases h
    · intro h
      cases h

theorem outcome_readPassword {password : Password} :
    around.readPassword.outcome = .ok password ↔
      ∃ text, around.password = some text ∧ .ofText text = password := by
  rw [Surroundings.readPassword]
  split
  · next text htext => simp [htext, bind]
  · next hnone => simp [hnone, fail]

/-- A command opens the vault of its configuration file and its password. -/
theorem outcome_openVault {path : String} {vault : Vault} :
    (around.openVault path).outcome = .ok vault ↔
      ∃ settings config password, around.read path = .ok settings ∧
        Config.ofBytes settings = .ok config ∧ around.password = some password ∧
        Opens config password around.random vault := by
  have hfile (config : Config) : Config.ofFile (around.read path) = .ok config ↔
      ∃ settings, around.read path = .ok settings ∧ Config.ofBytes settings = .ok config := by
    cases around.read path <;> simp [Config.ofFile]
  simp only [Surroundings.openVault, Journal.outcome_bind, bind_eq_ok_iff, outcome_within,
    Journal.outcome_lift, Journal.outcome_note, Journal.outcome_draftOfConfig,
    Journal.outcome_buildVault, outcome_readPassword, hfile, Opens]
  constructor
  · rintro ⟨config, ⟨settings, hread, hconfig⟩, -, -, draft, hdraft, -, ⟨password, hpassword, rfl⟩,
      hbuild⟩
    exact ⟨settings, config, password, hread, hconfig, hpassword, draft, hdraft, hbuild⟩
  · rintro ⟨settings, config, password, hread, hconfig, hpassword, draft, hdraft, hbuild⟩
    exact ⟨config, ⟨settings, hread, hconfig⟩, (), trivial, draft, hdraft, _,
      ⟨password, hpassword, rfl⟩, hbuild⟩

/-- The bytes that a command reads: those of a file, or of the stream that stands in for it. -/
def readFrom (read : String → Except FileFault Bytes) (stream : Bytes) :
    Option String → Except FileFault Bytes
  | some path => read path
  | none => .ok stream

theorem outcome_readInput {input : Option String} {data : Bytes} :
    (around.readInput input).outcome = .ok data ↔
      readFrom around.read around.input input = .ok data := by
  cases input with
  | none =>
    rw [Surroundings.readInput, Journal.outcome_pure, readFrom, Except.ok.injEq, Except.ok.injEq]
  | some path => exact outcome_readFile

/-- What is delivered when an input is encrypted. -/
theorem outcome_encrypt {config : String} {input output : Option String} {delivery : Delivery} :
    (around.encrypt config input output).outcome = .ok delivery ↔
      ∃ vault data text next, (around.openVault config).outcome = .ok vault ∧
        (around.readInput input).outcome = .ok data ∧
        vault.encryptEncoded data = .ok (text, next) ∧
        delivery = ⟨output, encode (text ++ "\n"),
          info ("Encrypted " ++ toString data.length ++ " bytes")⟩ := by
  simp only [Surroundings.encrypt, Journal.outcome_bind, bind_eq_ok_iff, Journal.outcome_attempt,
    Journal.outcome_close, outcome_within, Journal.outcome_lift, Journal.outcome_encryptEncoded,
    Except.ok.injEq, exists_eq_left', Journal.outcome_pure, Prod.exists, @eq_comm _ _ delivery]
  simp only [exists_and_left]

/-- Once a text was read, all hangs on its payload. -/
theorem outcome_decrypt_of_text {config : String} {input : Option String} {vault : Vault}
    {data : Bytes} {text : String} (hvault : (around.openVault config).outcome = .ok vault)
    (hinput : readFrom around.read around.input input = .ok data)
    (htext : Text.Utf8.decode data = .ok text) (output : Option String) :
    (around.decrypt config input output).outcome =
      ((vault.decryptEncoded (Text.trim text)).mapError
        fun error => "Decryption failed" :: reasons error).map
        fun plain => ⟨output, plain, info ("Decrypted " ++ toString plain.length ++ " bytes")⟩ := by
  have hdata : (around.readInput input).outcome = .ok data := outcome_readInput.mpr hinput
  simp only [Surroundings.decrypt, hvault, hdata, bind, htext, Journal.outcome_attempt,
    Journal.outcome_close, Journal.outcome_decryptEncoded]
  cases vault.decryptEncoded (Text.trim text) <;> rfl

/-- What is delivered when an input is decrypted. -/
theorem outcome_decrypt {config : String} {input : Option String} {vault : Vault} {text : String}
    {data : Bytes} (hvault : (around.openVault config).outcome = .ok vault)
    (hinput : (around.readInput input).outcome = .ok (encode text))
    (hdecrypt : vault.decryptEncoded (Text.trim text) = .ok data) (output : Option String) :
    (around.decrypt config input output).outcome =
      .ok ⟨output, data, info ("Decrypted " ++ toString data.length ++ " bytes")⟩ := by
  rw [outcome_decrypt_of_text hvault (outcome_readInput.mp hinput) (Text.Utf8.decode_encode text),
    hdecrypt]
  rfl

end

/-! ## Answers -/

section

variable {verbose : Bool} {action : Action} {around : Surroundings} {files files' : Files}
  {delivery : Delivery} {output : Bytes}

/-- A command that exits with 0 delivered something. -/
theorem exists_of_act {result : Answer} (h : act verbose action around files = (result, files'))
    (hcode : result.code = 0) :
    ∃ delivery, (deliver around action).outcome = .ok delivery ∧
      delivery.write files = .ok (result.output, files') := by
  rw [act] at h
  split at h
  · cases h
    cases hcode
  · next delivery hdelivery =>
    refine ⟨delivery, hdelivery, ?_⟩
    split at h
    · cases h
      cases hcode
    · next hwrite =>
      cases h
      exact hwrite

theorem exists_act (hdelivery : (deliver around action).outcome = .ok delivery)
    (hwrite : delivery.write files = .ok (output, files')) :
    ∃ log, act verbose action around files = (⟨0, output, log, []⟩, files') := by
  rw [act]
  simp only [hdelivery, hwrite]
  exact ⟨_, rfl⟩

/-- What a delivery writes can be read from where it was written to. -/
theorem Delivery.readFrom_of_write (h : delivery.write files = .ok (output, files')) :
    readFrom files'.readAt output delivery.destination = .ok delivery.data := by
  rw [write] at h
  split at h
  · next hnone =>
    cases h
    rw [hnone, readFrom]
  · next path hpath =>
    split at h
    · next hwrite =>
      cases h
      rw [hpath, readFrom]
      exact Files.readAt_of_writeAt hwrite
    · cases h

/-- What a delivery does not write is read as before. -/
theorem Delivery.readAt_of_write {path : String} {data : Bytes}
    (h : delivery.write files = .ok (output, files')) (hread : files.readAt path = .ok data)
    (hne : ∀ written ∈ delivery.destination, files.locateAt written ≠ files.locateAt path) :
    files'.readAt path = .ok data := by
  rw [write] at h
  split at h
  · cases h
    exact hread
  · next written hwritten =>
    split at h
    · next hwrite =>
      cases h
      exact Files.readAt_of_writeAt_of_ne hwrite hread (hne written hwritten)
    · cases h

/-- A command with a vault that can be opened encrypts what it can read. -/
theorem exists_answer_encrypt {arguments : List String} {config : String}
    {input output : Option String} {stdin settings data written : Bytes} {password : String}
    {random : Random} {c : Config} {vault next : Vault} {text : String}
    (hparse : parse? arguments = some (.act verbose (.encrypt config input output)))
    (hread : files.readAt config = .ok settings) (hconfig : Config.ofBytes settings = .ok c)
    (hopens : Opens c password random vault)
    (hinput : readFrom files.readAt stdin input = .ok data)
    (hencrypt : vault.encryptEncoded data = .ok (text, next))
    (hwrite : ∀ report, Delivery.write files ⟨output, encode (text ++ "\n"), report⟩ =
      .ok (written, files')) :
    ∃ log, answer arguments files stdin (some password) random =
      (⟨0, written, log, []⟩, files') := by
  have hvault : ((surroundings files stdin (some password) random).openVault config).outcome =
      .ok vault := outcome_openVault.mpr ⟨settings, c, password, hread, hconfig, rfl, hopens⟩
  let report := info ("Encrypted " ++ toString data.length ++ " bytes")
  simp only [answer, hparse]
  refine exists_act (outcome_encrypt.mpr ?_) (hwrite report)
  exact ⟨vault, data, text, next, hvault, outcome_readInput.mpr hinput, hencrypt, rfl⟩

end

/-! ## Between two commands -/

/-- Whatever command decrypts `text`, with a configuration file that holds `settings`, it succeeds
and writes `data` and nothing else. -/
def Restores (settings : Bytes) (password text : String) (data : Bytes) : Prop :=
  ∀ (arguments : List String) (verbose : Bool) (config : String) (input output : Option String)
    (files : Files) (stdin : Bytes) (random : Random),
    parse? arguments = some (.act verbose (.decrypt config input output)) →
    files.readAt config = .ok settings →
    readFrom files.readAt stdin input = .ok (encode text) →
    (output = none →
      ∃ log, answer arguments files stdin (some password) random = (⟨0, data, log, []⟩, files)) ∧
    ∀ path files', output = some path → files.writeAt path data = .ok files' →
      files'.readAt path = .ok data ∧
        ∃ log, answer arguments files stdin (some password) random = (⟨0, [], log, []⟩, files')

variable {password : String} {random : Random}

/-- What a vault sealed is restored by every command with its configuration. -/
theorem restores_of_encrypt {settings : Bytes} {config : Config} {vault next : Vault}
    {data payload : Bytes} {text : String} (hconfig : Config.ofBytes settings = .ok config)
    (hopens : Opens config password random vault)
    (hencrypt : vault.encrypt data = .ok (payload, next))
    (htext : Text.trim text = vault.codec.encode payload) :
    Restores settings password text data := by
  intro arguments verbose path input output files stdin random' hparse hread hinput
  obtain ⟨vault', hopens', hdecrypt⟩ := hopens.reopened random'
  have hdecode : vault'.decryptEncoded (Text.trim text) = .ok data := by
    rw [htext, Vault.decryptEncoded, hopens.codec_eq, hopens'.codec_eq, Codec.decode_encode]
    exact hdecrypt data payload next hencrypt
  have hvault : ((surroundings files stdin (some password) random').openVault path).outcome =
      .ok vault' := outcome_openVault.mpr ⟨settings, config, password, hread, hconfig, rfl, hopens'⟩
  have hdelivery := outcome_decrypt hvault (outcome_readInput.mpr hinput) hdecode output
  simp only [answer, hparse]
  constructor
  · rintro rfl
    exact exists_act hdelivery rfl
  · rintro written files' rfl hwrite
    refine ⟨Files.readAt_of_writeAt hwrite, exists_act hdelivery ?_⟩
    simp only [Delivery.write, hwrite]

/-- **What was encrypted is decrypted.** A command that encrypts and exits with 0 wrote the text of
a payload and a line break, and left its configuration file as it was. That text, with or without
blanks around it, is decrypted to the input by every command with that configuration and that
password, wherever it is read from. -/
theorem decrypt_of_encrypt {arguments : List String} {verbose : Bool} {config : String}
    {input output : Option String} {files files' : Files} {stdin : Bytes} {result : Answer}
    (hparse : parse? arguments = some (.act verbose (.encrypt config input output)))
    (hother : ∀ path ∈ output, files.locateAt path ≠ files.locateAt config)
    (hrun : answer arguments files stdin (some password) random = (result, files'))
    (hcode : result.code = 0) :
    ∃ settings c vault data payload next, files.readAt config = .ok settings ∧
      Config.ofBytes settings = .ok c ∧ Opens c password random vault ∧
      readFrom files.readAt stdin input = .ok data ∧
      vault.encrypt data = .ok (payload, next) ∧
      let text := c.codec.encode payload ++ "\n"
      readFrom files'.readAt result.output output = .ok (encode text) ∧
        files'.readAt config = .ok settings ∧
        ∀ before after : String, (∀ b ∈ before.toList, isBlank b = true) →
          (∀ b ∈ after.toList, isBlank b = true) →
          Restores settings password (before ++ text ++ after) data := by
  simp only [answer, hparse] at hrun
  obtain ⟨delivery, hdelivery, hwrite⟩ := exists_of_act hrun hcode
  obtain ⟨vault, data, text, next, hvault, hinput, hencoded, rfl⟩ := outcome_encrypt.mp hdelivery
  obtain ⟨settings, c, password', hread, hconfig, hpassword, hopens⟩ := outcome_openVault.mp hvault
  obtain rfl : password = password' := Option.some.inj hpassword
  obtain ⟨⟨payload, next'⟩, hencrypt, htext⟩ := bind_eq_ok_iff.mp hencoded
  cases htext
  refine ⟨settings, c, vault, data, payload, next, hread, hconfig, hopens,
    outcome_readInput.mp hinput, hencrypt, ?_⟩
  rw [← hopens.codec_eq]
  refine ⟨Delivery.readFrom_of_write hwrite, Delivery.readAt_of_write hwrite hread hother, ?_⟩
  intro before after hbefore hafter
  refine restores_of_encrypt hconfig hopens hencrypt ?_
  have hline : ∀ b ∈ ("\n" ++ after).toList, isBlank b = true := by
    rw [String.toList_append]
    exact List.forall_mem_cons.mpr ⟨rfl, hafter⟩
  rw [← String.append_assoc, String.append_assoc]
  exact Codec.trim_encode vault.codec payload hbefore hline

/-- A file is encrypted in its own place, and restored there by the next command. -/
theorem decrypt_of_encrypt_in_place :
    let config := Config.aes (.ofSpec (.legacy .md5 ⟨16, by decide, by decide⟩))
    let files : Files := [(["c"], encode config.toJson), (["f"], [104, 105])]
    let random := Random.ofStream UInt8.ofNat
    ∃ log log' files' files'',
      answer ["encrypt", "-c", "c", "-i", "f", "-o", "f"] files [] (some "p") random =
        (⟨0, [], log, []⟩, files') ∧
      answer ["decrypt", "-o", "f", "-i", "f", "-c", "c"] files' [] (some "p") random =
        (⟨0, [], log', []⟩, files'') ∧
      files''.readAt "f" = .ok [104, 105] := by
  intro config
  have hconfig : Config.ofBytes (encode config.toJson) = .ok config := by
    rw [Config.ofBytes, Config.decode_toJson]
    rfl
  have hencryptParse : parse? ["encrypt", "-c", "c", "-i", "f", "-o", "f"] =
      some (.act false (.encrypt "c" (some "f") (some "f"))) := by decide +kernel
  have hdecryptParse : parse? ["decrypt", "-o", "f", "-i", "f", "-c", "c"] =
      some (.act false (.decrypt "c" (some "f") (some "f"))) := by decide +kernel
  have hlen : (Derivation.Spec.legacy .md5 ⟨16, by decide, by decide⟩).keyLength.val ∈
      [16, 24, 32] := by decide
  have hfilled : (Password.ofText "p").isEmpty = false := by decide
  obtain ⟨a, hopens, hpassword⟩ := exists_opens rfl hlen hfilled (.ofStream UInt8.ofNat)
  obtain ⟨payload, next, hencrypt, -⟩ := AesVault.decrypt_encrypt hpassword hpassword rfl [104, 105]
  have hencoded : (Vault.aes a).encryptEncoded [104, 105] =
      .ok (a.codec.encode payload, .aes next) := by
    rw [Vault.encryptEncoded, Vault.encrypt, hencrypt]
    rfl
  generalize encode config.toJson = settings at hconfig ⊢
  intro files random
  let line := encode (a.codec.encode payload ++ "\n")
  have hwrite (report : Option Journal.Event) : Delivery.write files ⟨some "f", line, report⟩ =
      .ok ([], [(["f"], line), (["c"], settings)]) := rfl
  have hinput : readFrom files.readAt [] (some "f") = .ok [104, 105] := rfl
  have hread : files.readAt "c" = .ok settings := rfl
  obtain ⟨log, hrun⟩ :=
    exists_answer_encrypt hencryptParse hread hconfig hopens hinput hencoded hwrite
  have hother : ∀ path ∈ some "f", files.locateAt path ≠ files.locateAt "c" := by
    rintro _ ⟨⟩ h
    cases h
  obtain ⟨_, c, _, _, payload', _, hreadC, -, -, hinputF, -, hwritten, hread', hrestores⟩ :=
    decrypt_of_encrypt hencryptParse hother hrun rfl
  cases hreadC
  cases hinputF
  have hgiven : readFrom (Files.readAt [(["f"], line), (["c"], settings)]) [] (some "f") =
      .ok (encode ("" ++ (c.codec.encode payload' ++ "\n") ++ "")) := by
    rw [String.empty_append, String.append_empty]
    exact hwritten
  have hempty : ∀ c ∈ "".toList, Text.isBlank c = true := by
    intro _ h
    cases h
  obtain ⟨hback, log', hrun'⟩ := (hrestores "" "" hempty hempty _ _ _ _ _ _ [] random
    hdecryptParse hread' hgiven).2 "f" _ rfl rfl
  exact ⟨log, log', _, _, hrun, hrun', hback⟩

end Command

end Strongbox
