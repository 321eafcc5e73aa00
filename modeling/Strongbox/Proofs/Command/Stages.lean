import Strongbox.Proofs.Command.RoundTrip
import Strongbox.Proofs.Vault.Refusal

/-!
# Stages of a command

A command opens the vault of a configuration file or loads the spec of a file, and reads an input or
a password. Each of these stages fails for reasons of its own, told from the outermost inwards, and
for the first that there is.

## Main definitions

* `Command.Configures`: the configuration that a file holds
* `Command.OpenFails`, `Command.LoadFails`: why a vault is not opened, and a spec not loaded

## Main results

* `Command.openVault_fails_iff`, `Command.loadSpec_fails_iff`: the stages fail for these reasons
-/

namespace Strongbox.Command

open Strongbox.Derivation (Properties Spec)
open Vault (Config Draft)

variable {around : Surroundings} {path : String} {r : Reasons}

/-! ## Stages that fail -/

theorem within_fails_iff {α : Type} {reason : String} {run : Journal Error α} :
    (within reason run).outcome = .error r ↔
      ∃ error, run.outcome = .error error ∧ reason :: reasons error = r :=
  mapError_eq_error_iff

theorem readFile_fails_iff : (around.readFile path).outcome = .error r ↔
    ∃ fault, around.read path = .error fault ∧ ["Failed to read " ++ path, fault.message] = r := by
  rw [Surroundings.readFile]
  split
  · next hread => simp [hread]
  · next hread => simp [hread, fail]

theorem readInput_fails_iff {input : Option String} :
    (around.readInput input).outcome = .error r ↔
      ∃ path ∈ input, ∃ fault, around.read path = .error fault ∧
        ["Failed to read " ++ path, fault.message] = r := by
  cases input with
  | none => simp [Surroundings.readInput]
  | some path => simp [Surroundings.readInput, readFile_fails_iff]

theorem readPassword_fails_iff : around.readPassword.outcome = .error r ↔
    around.password = none ∧ ["Failed to read password"] = r := by
  rw [Surroundings.readPassword]
  split
  · next hpassword => simp [hpassword, bind]
  · next hpassword => simp [hpassword, fail]

/-! ## Opening a vault -/

/-- The configuration that a file holds. -/
def Configures (around : Surroundings) (path : String) (config : Config) : Prop :=
  ∃ data, around.read path = .ok data ∧ Config.ofBytes data = .ok config

/-- Why the vault of a configuration file is not opened. -/
inductive OpenFails (around : Surroundings) (path : String) : Reasons → Prop
  /-- The file cannot be read. -/
  | unreadable {fault : FileFault} (h : around.read path = .error fault) :
      OpenFails around path (("Failed to load vault config " ++ path) :: reasons (.file fault))
  /-- It holds no configuration. -/
  | malformed {data : Bytes} {error : Error} (hread : around.read path = .ok data)
      (h : Config.ofBytes data = .error error) :
      OpenFails around path (("Failed to load vault config " ++ path) :: reasons error)
  /-- The configuration is of no kind there is. -/
  | unsupported {config : Config} {error : Error} (hconfig : Configures around path config)
      (h : config.parsedKind = .error error) :
      OpenFails around path ("Invalid vault config" :: reasons error)
  /-- It is to encrypt, but does not say how keys are derived. -/
  | missing {config : Config} (hconfig : Configures around path config)
      (hkind : config.parsedKind = .ok .aes) (h : config.kdf = none) :
      OpenFails around path ("Invalid vault config" :: reasons (.missingParameter "kdf"))
  /-- Keys cannot be derived as it says. -/
  | unrunnable {config : Config} {p : Properties} {error : Error}
      (hconfig : Configures around path config) (hkind : config.parsedKind = .ok .aes)
      (hkdf : config.kdf = some p) (h : (Spec.ofProperties p >>= Spec.kdf) = .error error) :
      OpenFails around path ("Invalid vault config" :: reasons error)
  /-- There is no password. -/
  | password {config : Config} {draft : Draft} (hconfig : Configures around path config)
      (hdraft : Draft.ofConfig config = .ok draft) (h : around.password = none) :
      OpenFails around path ["Failed to read password"]
  /-- The password is empty. -/
  | empty {config : Config} {kdf : Kdf} {password : String}
      (hconfig : Configures around path config) (hkdf : config.Derives kdf)
      (hpassword : around.password = some password)
      (h : (Password.ofText password).isEmpty = true) :
      OpenFails around path ("Failed to open vault" :: reasons (.invalidInput .emptyPassword))
  /-- The keys that are derived are no AES keys. -/
  | keyLength {config : Config} {kdf : Kdf} {password : String}
      (hconfig : Configures around path config) (hkdf : config.Derives kdf)
      (hpassword : around.password = some password)
      (hfilled : (Password.ofText password).isEmpty = false)
      (h : kdf.keyLength ∉ [16, 24, 32]) :
      OpenFails around path
        ("Failed to open vault" :: reasons (.invalidInput (.keyLength kdf.keyLength)))

theorem ofFile_eq_ok_iff {config : Config} :
    Config.ofFile (around.read path) = .ok config ↔ Configures around path config := by
  rw [Configures]
  cases around.read path <;> simp [Config.ofFile]

/-- A configuration that derives keys has a draft, and a vault that does not open is not built. -/
theorem exists_draft_of_open {config : Config} {kdf : Kdf} {password : String} {error : Error}
    (hkdf : config.Derives kdf)
    (h : AesVault.open kdf (.ofText password) config.codec around.random = .error error) :
    ∃ draft, Draft.ofConfig config = .ok draft ∧
      Draft.build around.random { draft with password := some (.ofText password) } =
        .error error := by
  have hdraft := Draft.ofConfig_eq_ok_iff.mpr (.inr ⟨kdf, hkdf, rfl⟩)
  exact ⟨_, hdraft, (Draft.build_eq_error_iff hdraft).mpr ⟨kdf, hkdf, h⟩⟩

/-- **A vault is not opened** for the first of these reasons. -/
theorem openVault_fails_iff : (around.openVault path).outcome = .error r ↔
    OpenFails around path r := by
  simp only [Surroundings.openVault, Journal.outcome_bind, bind_eq_error_iff, within_fails_iff,
    outcome_within, Journal.outcome_lift, Journal.outcome_note, Journal.outcome_draftOfConfig,
    Journal.outcome_buildVault, readPassword_fails_iff, outcome_readPassword, ofFile_eq_ok_iff]
  constructor
  · rintro (⟨error, hload, rfl⟩ | ⟨config, hconfig, hnote | ⟨-, -, h⟩⟩)
    · cases hread : around.read path with
      | error fault =>
        rw [hread] at hload
        cases hload
        exact .unreadable hread
      | ok data =>
        rw [hread] at hload
        exact .malformed hread hload
    · cases hnote
    rcases h with ⟨error, hdraft, rfl⟩ | ⟨draft, hdraft, ⟨hnone, rfl⟩ | h⟩
    · rcases Draft.ofConfig_eq_error_iff.mp hdraft with
        hkind | ⟨hkind, hnone, rfl⟩ | ⟨hkind, p, hp, hrun⟩
      · exact .unsupported hconfig hkind
      · exact .missing hconfig hkind hnone
      · exact .unrunnable hconfig hkind hp hrun
    · exact .password hconfig hdraft hnone
    · obtain ⟨_, ⟨password, hpassword, rfl⟩, error, hbuild, rfl⟩ := h
      obtain ⟨kdf, hkdf, hopen⟩ := (Draft.build_eq_error_iff hdraft).mp hbuild
      rcases AesVault.open_eq_error_iff.mp hopen with ⟨hempty, rfl⟩ | ⟨hfilled, hlen, rfl⟩
      · exact .empty hconfig hkdf hpassword hempty
      · exact .keyLength hconfig hkdf hpassword hfilled hlen
  · intro h
    cases h with
    | unreadable h => exact .inl ⟨_, by rw [h]; rfl, rfl⟩
    | malformed hread h => exact .inl ⟨_, by rw [hread]; exact h, rfl⟩
    | unsupported hconfig h =>
      have hdraft := Draft.ofConfig_eq_error_iff.mpr (.inl h)
      exact .inr ⟨_, hconfig, .inr ⟨(), trivial, .inl ⟨_, hdraft, rfl⟩⟩⟩
    | missing hconfig hkind h =>
      have hdraft := Draft.ofConfig_eq_error_iff.mpr (.inr (.inl ⟨hkind, h, rfl⟩))
      exact .inr ⟨_, hconfig, .inr ⟨(), trivial, .inl ⟨_, hdraft, rfl⟩⟩⟩
    | unrunnable hconfig hkind hkdf h =>
      have hdraft := Draft.ofConfig_eq_error_iff.mpr (.inr (.inr ⟨hkind, _, hkdf, h⟩))
      exact .inr ⟨_, hconfig, .inr ⟨(), trivial, .inl ⟨_, hdraft, rfl⟩⟩⟩
    | password hconfig hdraft h =>
      exact .inr ⟨_, hconfig, .inr ⟨(), trivial, .inr ⟨_, hdraft, .inl ⟨h, rfl⟩⟩⟩⟩
    | empty hconfig hkdf hpassword h =>
      obtain ⟨draft, hdraft, hrefused⟩ := exists_draft_of_open hkdf
        (AesVault.open_eq_error_iff.mpr (.inl ⟨h, rfl⟩))
      exact .inr ⟨_, hconfig, .inr ⟨(), trivial, .inr ⟨draft, hdraft,
        .inr ⟨_, ⟨_, hpassword, rfl⟩, _, hrefused, rfl⟩⟩⟩⟩
    | keyLength hconfig hkdf hpassword hfilled h =>
      obtain ⟨draft, hdraft, hrefused⟩ := exists_draft_of_open hkdf
        (AesVault.open_eq_error_iff.mpr (.inr ⟨hfilled, h, rfl⟩))
      exact .inr ⟨_, hconfig, .inr ⟨(), trivial, .inr ⟨draft, hdraft,
        .inr ⟨_, ⟨_, hpassword, rfl⟩, _, hrefused, rfl⟩⟩⟩⟩

/-! ## Loading a spec -/

/-- Why the spec of a file is not loaded. -/
inductive LoadFails (around : Surroundings) (path : String) : Reasons → Prop
  /-- The file cannot be read. -/
  | unreadable {fault : FileFault} (h : around.read path = .error fault) :
      LoadFails around path ["Failed to read " ++ path, fault.message]
  /-- It holds no text. -/
  | notText {data : Bytes} {fault : Text.Utf8.Fault} (hread : around.read path = .ok data)
      (h : Text.Utf8.decode data = .error fault) :
      LoadFails around path ["Failed to read " ++ path, FileFault.notText.message]
  /-- The text is no document of a spec. -/
  | malformed {data : Bytes} {text : String} {error : Error} (hread : around.read path = .ok data)
      (htext : Text.Utf8.decode data = .ok text) (h : Spec.ofJson text = .error error) :
      LoadFails around path ("Invalid KDF spec" :: reasons error)

theorem loadSpec_fails_iff : (around.loadSpec path).outcome = .error r ↔
    LoadFails around path r := by
  simp only [Surroundings.loadSpec, Journal.outcome_bind, bind_eq_error_iff, readFile_fails_iff,
    outcome_readFile]
  constructor
  · rintro (⟨fault, hread, rfl⟩ | ⟨data, hread, h⟩)
    · exact .unreadable hread
    · split at h
      · next text htext =>
        rw [within_fails_iff, Journal.outcome_specOfJson] at h
        obtain ⟨error, hspec, rfl⟩ := h
        exact .malformed hread htext hspec
      · next htext =>
        cases h
        exact .notText hread htext
  · intro h
    cases h with
    | unreadable h => exact .inl ⟨_, h, rfl⟩
    | notText hread h =>
      refine .inr ⟨_, hread, ?_⟩
      simp only [h]
      rfl
    | malformed hread htext h =>
      refine .inr ⟨_, hread, ?_⟩
      simp only [htext, within_fails_iff, Journal.outcome_specOfJson]
      exact ⟨_, h, rfl⟩

end Strongbox.Command
