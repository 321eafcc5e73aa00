import Strongbox.Proofs.Command.Stages

/-!
# Commands that fail

A command reads before it writes. It may fail at any of its stages: when the vault is opened or the
spec is loaded, at the input, at the salt or the password, at the payload. Whichever it is, nothing
was written by then, so that all files are as they were and nothing was printed. A command that
gets past all of them has one thing to write and one place to write it to.

## Main definitions

* `Command.Fails`: why a command has nothing to write
* `Command.WriteFails`: what it has to write is not written
* `Action.output?`: the file a command is to write

## Main results

* `Command.deliver_fails_iff`: a command has nothing to write for these reasons
* `Command.act_cases`: what an action can come to
* `Command.failure_leaves_files`: a command that fails leaves all files as they are, and one that
  does not writes to its output alone
-/

namespace Strongbox.Command

open Strongbox.Derivation (Spec)
open Vault (Config Draft)
open Text.Utf8 (encode)

/-! ## Commands that fail -/

/-- Why a command has nothing to write. What is behind a stage is only looked at if the stage was
passed. -/
inductive Fails (around : Surroundings) : Action → Reasons → Prop
  /-- The vault to encrypt with is not opened. -/
  | encryptVault {config : String} {input output : Option String} {r : Reasons}
      (h : OpenFails around config r) : Fails around (.encrypt config input output) r
  /-- The input to encrypt cannot be read. -/
  | encryptInput {config path : String} {output : Option String} {vault : Vault}
      {fault : FileFault} (hvault : (around.openVault config).outcome = .ok vault)
      (h : around.read path = .error fault) :
      Fails around (.encrypt config (some path) output)
        ["Failed to read " ++ path, fault.message]
  /-- The vault to decrypt with is not opened. -/
  | decryptVault {config : String} {input output : Option String} {r : Reasons}
      (h : OpenFails around config r) : Fails around (.decrypt config input output) r
  /-- The input to decrypt cannot be read. -/
  | decryptInput {config path : String} {output : Option String} {vault : Vault}
      {fault : FileFault} (hvault : (around.openVault config).outcome = .ok vault)
      (h : around.read path = .error fault) :
      Fails around (.decrypt config (some path) output)
        ["Failed to read " ++ path, fault.message]
  /-- The input to decrypt is no text. -/
  | notText {config : String} {input output : Option String} {vault : Vault} {data : Bytes}
      {fault : Text.Utf8.Fault} (hvault : (around.openVault config).outcome = .ok vault)
      (hinput : readFrom around.read around.input input = .ok data)
      (h : Text.Utf8.decode data = .error fault) :
      Fails around (.decrypt config input output) ["Payload is not valid text", fault.message]
  /-- The text is not what the codec of the vault writes. -/
  | payload {config : String} {input output : Option String} {vault : Vault} {data : Bytes}
      {text : String} {error : Error} (hvault : (around.openVault config).outcome = .ok vault)
      (hinput : readFrom around.read around.input input = .ok data)
      (htext : Text.Utf8.decode data = .ok text)
      (h : vault.codec.decode (Text.trim text) = .error error) :
      Fails around (.decrypt config input output) ("Decryption failed" :: reasons error)
  /-- The payload is not decrypted. -/
  | decryption {config : String} {input output : Option String} {vault : Vault}
      {data payload : Bytes} {text : String}
      (hvault : (around.openVault config).outcome = .ok vault)
      (hinput : readFrom around.read around.input input = .ok data)
      (htext : Text.Utf8.decode data = .ok text)
      (hpayload : vault.codec.decode (Text.trim text) = .ok payload)
      (h : vault.decrypt payload = .error .decryptionFailed) :
      Fails around (.decrypt config input output)
        ("Decryption failed" :: reasons .decryptionFailed)
  /-- The spec to derive with is not loaded. -/
  | deriveSpec {path salt : String} {r : Reasons} (h : LoadFails around path r) :
      Fails around (.derive path salt) r
  /-- The salt is not in hexadecimal. -/
  | salt {path salt : String} {spec : Spec} {error : Error}
      (hspec : (around.loadSpec path).outcome = .ok spec)
      (h : Codec.hex.decode salt = .error error) :
      Fails around (.derive path salt) ("Salt must be hex" :: reasons error)
  /-- There is no password to derive from. -/
  | password {path salt : String} {spec : Spec} {data : Bytes}
      (hspec : (around.loadSpec path).outcome = .ok spec)
      (hsalt : Codec.hex.decode salt = .ok data) (h : around.password = none) :
      Fails around (.derive path salt) ["Failed to read password"]
  /-- Keys cannot be derived as the spec says. -/
  | unrunnable {path salt password : String} {spec : Spec} {data : Bytes} {error : Error}
      (hspec : (around.loadSpec path).outcome = .ok spec)
      (hsalt : Codec.hex.decode salt = .ok data) (hpassword : around.password = some password)
      (h : spec.kdf = .error error) :
      Fails around (.derive path salt) ("Unsupported KDF parameters" :: reasons error)
  /-- The spec to print is not loaded. -/
  | printSpec {path : String} {r : Reasons} (h : LoadFails around path r) :
      Fails around (.spec path) r

section

variable {around : Surroundings} {r : Reasons} {config path : String} {input output : Option String}
  {vault : Vault}

/-- A vault that was opened can encrypt and decrypt. -/
theorem isDestroyed_of_openVault (h : (around.openVault config).outcome = .ok vault) :
    vault.isDestroyed = false := by
  obtain ⟨_, _, _, -, -, -, _, -, hbuild⟩ := outcome_openVault.mp h
  rcases Draft.build_eq_ok_iff.mp hbuild with ⟨-, rfl⟩ | ⟨-, _, _, a, -, -, hopen, rfl⟩
  · rfl
  · rw [Vault.isDestroyed, AesVault.isDestroyed, (AesVault.eq_of_open hopen).2.2.2]
    rfl

theorem encrypt_fails_iff : (around.encrypt config input output).outcome = .error r ↔
    Fails around (.encrypt config input output) r := by
  simp only [Surroundings.encrypt, Journal.outcome_bind, bind_eq_error_iff, openVault_fails_iff,
    readInput_fails_iff, outcome_readInput, Journal.outcome_attempt, Journal.outcome_close,
    within_fails_iff, Journal.outcome_lift, Journal.outcome_encryptEncoded, Journal.outcome_pure,
    Except.ok.injEq, exists_eq_left', reduceCtorEq, and_false, exists_false, or_false, false_or]
  constructor
  · rintro (h | ⟨vault, hvault, ⟨path, hpath, fault, hread, rfl⟩ | ⟨data, -, error, hencrypt, -⟩⟩)
    · exact .encryptVault h
    · obtain rfl := Option.mem_def.mp hpath
      exact .encryptInput hvault hread
    · obtain ⟨result, hresult⟩ :=
        Vault.exists_encryptEncoded (isDestroyed_of_openVault hvault) data
      cases hresult.symm.trans hencrypt
  · intro h
    cases h with
    | encryptVault h => exact .inl h
    | encryptInput hvault h => exact .inr ⟨_, hvault, .inl ⟨_, rfl, _, h, rfl⟩⟩

theorem decrypt_of_text_fails_iff {data : Bytes} {text : String}
    (hvault : (around.openVault config).outcome = .ok vault)
    (hinput : readFrom around.read around.input input = .ok data)
    (htext : Text.Utf8.decode data = .ok text) :
    (around.decrypt config input output).outcome = .error r ↔
      ∃ error, (vault.codec.decode (Text.trim text) = .error error ∨
        ∃ payload, vault.codec.decode (Text.trim text) = .ok payload ∧
          vault.decrypt payload = .error error) ∧ "Decryption failed" :: reasons error = r := by
  rw [outcome_decrypt_of_text hvault hinput htext, map_eq_error_iff, mapError_eq_error_iff]
  simp only [Vault.decryptEncoded, bind_eq_error_iff]

theorem decrypt_fails_iff : (around.decrypt config input output).outcome = .error r ↔
    Fails around (.decrypt config input output) r := by
  constructor
  · intro h
    have hstages := h
    simp only [Surroundings.decrypt, Journal.outcome_bind, bind_eq_error_iff, openVault_fails_iff,
      readInput_fails_iff, outcome_readInput] at hstages
    rcases hstages with
      hopen | ⟨vault, hvault, ⟨path, hpath, fault, hread, rfl⟩ | ⟨data, hinput, hdata⟩⟩
    · exact .decryptVault hopen
    · obtain rfl := Option.mem_def.mp hpath
      exact .decryptInput hvault hread
    · split at hdata
      · next htext =>
        cases hdata
        exact .notText hvault hinput htext
      · next text htext =>
        obtain ⟨error, hcodec | ⟨payload, hpayload, hfailed⟩, rfl⟩ :=
          (decrypt_of_text_fails_iff hvault hinput htext).mp h
        · exact .payload hvault hinput htext hcodec
        · obtain rfl := Vault.error_of_decrypt (isDestroyed_of_openVault hvault) hfailed
          exact .decryption hvault hinput htext hpayload hfailed
  · intro h
    cases h with
    | decryptVault h =>
      rw [Surroundings.decrypt, Journal.outcome_bind, bind_eq_error_iff, openVault_fails_iff]
      exact .inl h
    | decryptInput hvault h =>
      simp only [Surroundings.decrypt, Journal.outcome_bind, bind_eq_error_iff]
      exact .inr ⟨_, hvault, .inl (readInput_fails_iff.mpr ⟨_, rfl, _, h, rfl⟩)⟩
    | notText hvault hinput h =>
      simp only [Surroundings.decrypt, Journal.outcome_bind, bind_eq_error_iff]
      refine .inr ⟨_, hvault, .inr ⟨_, outcome_readInput.mpr hinput, ?_⟩⟩
      simp only [h]
      rfl
    | payload hvault hinput htext h =>
      exact (decrypt_of_text_fails_iff hvault hinput htext).mpr ⟨_, .inl h, rfl⟩
    | decryption hvault hinput htext hpayload h =>
      exact (decrypt_of_text_fails_iff hvault hinput htext).mpr ⟨_, .inr ⟨_, hpayload, h⟩, rfl⟩

theorem derive_fails_iff {salt : String} : (around.derive path salt).outcome = .error r ↔
    Fails around (.derive path salt) r := by
  simp only [Surroundings.derive, Journal.outcome_bind, bind_eq_error_iff, loadSpec_fails_iff,
    within_fails_iff, outcome_within, Journal.outcome_lift, Journal.outcome_note,
    readPassword_fails_iff, outcome_readPassword, Journal.outcome_deriveKey, Journal.outcome_pure,
    reduceCtorEq, and_false, exists_false, or_false, false_or]
  constructor
  · rintro (h | ⟨spec, hspec, ⟨error, hsalt, rfl⟩ | ⟨data, hsalt, ⟨hnone, rfl⟩ | h⟩⟩)
    · exact .deriveSpec h
    · exact .salt hspec hsalt
    · exact .password hspec hsalt hnone
    obtain ⟨_, ⟨password, hpassword, rfl⟩, -, -, ⟨error, hkdf, rfl⟩ | ⟨kdf, -, error, hkey, -⟩⟩ := h
    · exact .unrunnable hspec hsalt hpassword hkdf
    · obtain ⟨key, hmade, -⟩ := kdf.exists_deriveKey (Password.ofText password).bytes data
      cases hmade.symm.trans hkey
  · intro h
    cases h with
    | deriveSpec h => exact .inl h
    | salt hspec h => exact .inr ⟨_, hspec, .inl ⟨_, h, rfl⟩⟩
    | password hspec hsalt h => exact .inr ⟨_, hspec, .inr ⟨_, hsalt, .inl ⟨h, rfl⟩⟩⟩
    | unrunnable hspec hsalt hpassword h =>
      exact .inr ⟨_, hspec, .inr ⟨_, hsalt, .inr ⟨_, ⟨_, hpassword, rfl⟩, (), trivial,
        .inl ⟨_, h, rfl⟩⟩⟩⟩

theorem spec_fails_iff : (around.spec path).outcome = .error r ↔
    Fails around (.spec path) r := by
  simp only [Surroundings.spec, Journal.outcome_bind, bind_eq_error_iff, loadSpec_fails_iff,
    Journal.outcome_pure, reduceCtorEq, and_false, exists_false, or_false]
  constructor
  · intro h
    exact .printSpec h
  · intro h
    cases h with
    | printSpec h => exact h

/-- **A command has nothing to write** for the first of these reasons. -/
theorem deliver_fails_iff {action : Action} : (deliver around action).outcome = .error r ↔
    Fails around action r := by
  cases action with
  | encrypt => exact encrypt_fails_iff
  | decrypt => exact decrypt_fails_iff
  | derive => exact derive_fails_iff
  | spec => exact spec_fails_iff

end

/-! ## What is written -/

/-- The file an action is to write, if it is to write one. -/
def Action.output? : Action → Option String
  | .encrypt _ _ output => output
  | .decrypt _ _ output => output
  | .derive _ _ => none
  | .spec _ => none

section

variable {verbose : Bool} {action : Action} {around : Surroundings} {files files' : Files}
  {delivery : Delivery} {result : Answer} {output : Bytes}

theorem destination_of_deliver (h : (deliver around action).outcome = .ok delivery) :
    delivery.destination = action.output? := by
  cases action with
  | encrypt config input output =>
    obtain ⟨_, _, _, _, -, -, -, rfl⟩ := outcome_encrypt.mp h
    rfl
  | decrypt config input output =>
    simp only [deliver, Surroundings.decrypt, Journal.outcome_bind, bind_eq_ok_iff] at h
    obtain ⟨vault, -, data, -, h⟩ := h
    split at h
    · cases h
    · simp only [Journal.outcome_bind, bind_eq_ok_iff, Journal.outcome_pure] at h
      obtain ⟨_, -, _, -, _, -, h⟩ := h
      cases h
      rfl
  | derive path salt =>
    simp only [deliver, Surroundings.derive, Journal.outcome_bind, bind_eq_ok_iff,
      Journal.outcome_pure] at h
    obtain ⟨_, -, _, -, _, -, _, -, _, -, _, -, h⟩ := h
    cases h
    rfl
  | spec path =>
    simp only [deliver, Surroundings.spec, Journal.outcome_bind, bind_eq_ok_iff,
      Journal.outcome_pure] at h
    obtain ⟨_, -, h⟩ := h
    cases h
    rfl

theorem Delivery.write_eq_error_iff {r : Reasons} : delivery.write files = .error r ↔
    ∃ path ∈ delivery.destination, ∃ fault, files.writeAt path delivery.data = .error fault ∧
      writeReasons path fault = r := by
  rw [write]
  split
  · next hnone => simp [hnone]
  · next path hpath => cases hwrite : files.writeAt path delivery.data <;> simp [hpath, hwrite]

/-- What is at a place stays there, unless the delivery goes to a path that leads to it. -/
theorem Delivery.entry?_of_write {place : Place}
    (h : delivery.write files = .ok (output, files'))
    (hne : ∀ path ∈ delivery.destination, files.locateAt path ≠ .ok place) :
    files'.entry? place = files.entry? place := by
  rw [write] at h
  split at h
  · cases h
    rfl
  · next path hpath =>
    split at h
    · next hwrite =>
      cases h
      exact Files.entry?_of_writeAt_of_ne hwrite (hne path hpath)
    · cases h

/-- What an action can come to: it has nothing to write, or what it has is not written, or it is
written. -/
theorem act_cases (h : act verbose action around files = (result, files')) :
    (Fails around action result.reasons ∧ result.code = 1 ∧ result.output = [] ∧ files' = files) ∨
    (∃ delivery, (deliver around action).outcome = .ok delivery ∧
      delivery.write files = .error result.reasons ∧ result.code = 1) ∨
    ∃ delivery, (deliver around action).outcome = .ok delivery ∧
      delivery.write files = .ok (result.output, files') ∧ result.code = 0 := by
  rw [act] at h
  split at h
  · next r hfails =>
    cases h
    exact .inl ⟨deliver_fails_iff.mp hfails, rfl, rfl, rfl⟩
  · next delivery hdelivery =>
    split at h
    · next hwrite =>
      cases h
      exact .inr (.inl ⟨delivery, hdelivery, hwrite, rfl⟩)
    · next hwrite =>
      cases h
      exact .inr (.inr ⟨delivery, hdelivery, hwrite, rfl⟩)

/-- The write at the end of an action fails: there is something to write, and its file cannot be
written. -/
def WriteFails (around : Surroundings) (files : Files) (action : Action) (r : Reasons) : Prop :=
  ∃ delivery, (deliver around action).outcome = .ok delivery ∧
    ∃ path ∈ action.output?, ∃ fault, files.writeAt path delivery.data = .error fault ∧
      writeReasons path fault = r

/-- **A command that fails leaves all files as they are** and prints nothing, whatever it fails for
but the write at its end, and there is nothing else that it fails for. A command that does not fail
leaves all files as they are except the one that its output leads to. -/
theorem failure_leaves_files {arguments : List String} {stdin : Bytes} {password : Option String}
    {random : Random} (hparse : parse? arguments = some (.act verbose action))
    (hrun : answer arguments files stdin password random = (result, files')) :
    let around := surroundings files stdin password random
    (∀ r, Fails around action r →
      result.code = 1 ∧ result.reasons = r ∧ result.output = [] ∧ files' = files) ∧
    (result.code ≠ 0 →
      Fails around action result.reasons ∨ WriteFails around files action result.reasons) ∧
    (result.code = 0 → ∀ place, (∀ path ∈ action.output?, files.locateAt path ≠ .ok place) →
      files'.entry? place = files.entry? place) := by
  intro around
  simp only [answer, hparse] at hrun
  refine ⟨fun r hfails => ?_, fun hcode => ?_, fun hcode place hplace => ?_⟩
  · have houtcome := deliver_fails_iff.mpr hfails
    rcases act_cases hrun with ⟨hfails', hcode, hprinted, hfiles⟩ | ⟨_, h, -⟩ | ⟨_, h, -⟩
    · cases houtcome.symm.trans (deliver_fails_iff.mpr hfails')
      exact ⟨hcode, rfl, hprinted, hfiles⟩
    · cases houtcome.symm.trans h
    · cases houtcome.symm.trans h
  · rcases act_cases hrun with ⟨hfails, -⟩ | ⟨delivery, hdelivery, hwrite, -⟩ | ⟨_, -, -, hzero⟩
    · exact .inl hfails
    · obtain ⟨path, hpath, hfault⟩ := Delivery.write_eq_error_iff.mp hwrite
      rw [destination_of_deliver hdelivery] at hpath
      exact .inr ⟨delivery, hdelivery, path, hpath, hfault⟩
    · exact absurd hzero hcode
  · obtain ⟨delivery, hdelivery, hwrite⟩ := exists_of_act hrun hcode
    rw [← destination_of_deliver hdelivery] at hplace
    exact Delivery.entry?_of_write hwrite hplace

/-- A payload that is none is not decrypted in its own place, and stays there. -/
theorem failure_leaves_files_in_place :
    let config : Config := { kind := "none" }
    let files : Files := [(["c"], encode config.toJson), (["f"], [0x7A])]
    let random := Random.ofStream UInt8.ofNat
    ∃ result, answer ["decrypt", "-c", "c", "-i", "f", "-o", "f"] files [] (some "p") random =
        (result, files) ∧
      result.code = 1 ∧ result.output = [] ∧
      result.reasons = ["Decryption failed", "Codec error: Odd number of digits"] := by
  intro config
  have hconfig : Config.ofBytes (encode config.toJson) = .ok config := by
    rw [Config.ofBytes, Config.decode_toJson]
    rfl
  have hparse : parse? ["decrypt", "-c", "c", "-i", "f", "-o", "f"] =
      some (.act false (.decrypt "c" (some "f") (some "f"))) := by decide +kernel
  generalize encode config.toJson = settings at hconfig ⊢
  intro files random
  let around := surroundings files [] (some "p") random
  have hkind : config.parsedKind = .ok .plain := by decide +kernel
  have hvault : (around.openVault "c").outcome = .ok (.plain .hex) := by
    have hdraft := Vault.Draft.ofConfig_eq_ok_iff.mpr (.inl ⟨hkind, rfl⟩)
    exact outcome_openVault.mpr ⟨settings, config, "p", rfl, hconfig, rfl, _, hdraft, rfl⟩
  have hfails : Fails around (.decrypt "c" (some "f") (some "f"))
      ["Decryption failed", "Codec error: Odd number of digits"] := by
    have hdecode : Codec.hex.decode (Text.trim "z") = .error (.codec (.hex .oddLength)) := by
      decide +kernel
    have htext : Text.Utf8.decode [0x7A] = .ok "z" := rfl
    exact .payload hvault rfl htext hdecode
  have hrun : answer ["decrypt", "-c", "c", "-i", "f", "-o", "f"] files [] (some "p") random =
      (_, _) := rfl
  obtain ⟨hfailure, -⟩ := failure_leaves_files hparse hrun
  obtain ⟨hcode, hreasons, houtput, hfiles⟩ := hfailure _ hfails
  exact ⟨_, Prod.ext rfl hfiles, hcode, houtput, hreasons⟩

end

end Strongbox.Command
