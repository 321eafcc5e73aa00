import Strongbox.Proofs.Derivation.Runnable
import Strongbox.Proofs.Derivation.Spec
import Strongbox.Proofs.Settings
import Strongbox.Proofs.Vault.Basic
import Strongbox.Vault.Draft

/-!
# What a vault draft builds

A draft of a vault is what it was last given, part by part. One of a vault that leaves everything as
it is builds it with the codec, whatever else was set; one of an encrypting vault lacks first a
password and then a derivation, is refused for an empty password or keys that are no AES keys, and
builds a vault with the parts it was given in all other cases. A configuration stands for such
settings: for its codec alone, or for its codec and its properties.

## Main definitions

* `Setting.kdf?` and the like: what a setting gives
* `Setting.Accepted`, `Vault.AllAccepted`: settings that are not rejected
* `Draft.ofLast`: the draft that was last given what settings give
* `Vault.ofSettings`, `Vault.ofConfig`: the vaults of settings, and of a configuration with settings
  behind it

## Main results

* `Draft.foldlM_apply`: settings in a row make the draft of what was last given
* `Draft.build_eq_ok_iff`: the vaults that a draft builds
* `Draft.ofConfig_plain`, `Draft.ofConfig_aes`: the settings a configuration stands for
* `Vault.last_settings_decide`: what settings build
-/

namespace Strongbox

/-! ## Opening a vault -/

namespace AesVault

variable {kdf : Kdf} {password : Password} {codec : Codec} {random : Random}

theorem isEmpty_of_open {vault : AesVault}
    (h : AesVault.open kdf password codec random = .ok vault) : password.isEmpty = false := by
  rw [AesVault.open] at h
  split at h
  · cases h
  · next hempty => exact Bool.not_eq_true _ ▸ hempty

/-- The password is looked at first. -/
theorem open_of_isEmpty (h : password.isEmpty = true) :
    AesVault.open kdf password codec random = .error (.invalidInput .emptyPassword) := by
  rw [AesVault.open, if_pos h]

theorem open_of_keyLength (hpassword : password.isEmpty = false)
    (hlen : kdf.keyLength ∉ [16, 24, 32]) :
    AesVault.open kdf password codec random =
      .error (.invalidInput (.keyLength kdf.keyLength)) := by
  rw [AesVault.open, hpassword, if_neg Bool.false_ne_true]
  split
  · next size hsize =>
    have hkey : size.keyLength = kdf.keyLength := by simpa using List.find?_some hsize
    refine absurd ?_ hlen
    rw [← hkey]
    cases size <;> decide
  · rfl

end AesVault

namespace Vault

open Strongbox.Derivation (Properties Spec)

/-- A kind by its name. -/
theorem Kind.ofName_of_name {s : String} {kind : Kind} (h : Text.lowered s = kind.name) :
    ofName s = .ok kind := by
  rw [ofName, h]
  cases kind <;> rfl

theorem Kind.ofName_of_unknown {s : String} (h : ∀ kind : Kind, Text.lowered s ≠ kind.name) :
    ofName s = .error (.unsupportedType s) := by
  rw [ofName]
  split
  · next kind hkind =>
    have hname : kind.name = Text.lowered s := by simpa using List.find?_some hkind
    exact absurd hname.symm (h kind)
  · rfl

/-! ## What settings give -/

/-- The derivation of properties, if they make a spec that can run. -/
def kdfOf? (p : Properties) : Option Kdf := (Spec.ofProperties p >>= Spec.kdf).toOption

/-- The derivation that a setting gives, if it gives one. -/
def Setting.kdf? : Setting → Option Kdf
  | .kdf value => some value
  | .spec value => value.kdf.toOption
  | .properties p => kdfOf? p
  | _ => none

/-- The password that a setting gives, if it gives one. -/
def Setting.password? : Setting → Option Password
  | .password value => some value
  | _ => none

/-- The codec that a setting gives, if it gives one. -/
def Setting.codec? : Setting → Option Codec
  | .codec value => some value
  | .codecName name => (Codec.ofName name).toOption
  | _ => none

/-- The source of vectors that a setting gives, if it gives one. -/
def Setting.random? : Setting → Option Random
  | .random value => some value
  | _ => none

/-- A setting that is not rejected: specs and properties can run, and names are those of codecs. -/
def Setting.Accepted : Setting → Prop
  | .spec value => ∃ kdf, value.kdf = .ok kdf
  | .properties p => ∃ value kdf, Spec.ofProperties p = .ok value ∧ value.kdf = .ok kdf
  | .codecName name => ∃ value, Codec.ofName name = .ok value
  | _ => True

/-- Settings of which none is rejected. -/
def AllAccepted (settings : List Setting) : Prop := ∀ setting ∈ settings, setting.Accepted

/-- The draft that was last given what settings give. -/
def Draft.ofLast (kind : Kind) (settings : List Setting) : Draft where
  kind
  kdf := lastGiven Setting.kdf? settings
  password := lastGiven Setting.password? settings
  codec := (lastGiven Setting.codec? settings).getD .default
  random := lastGiven Setting.random? settings

/-- The vault of settings in a row. -/
def ofSettings (fallback : Random) (kind : Kind) (settings : List Setting) : Result Vault := do
  (← settings.foldlM Draft.apply (.ofKind kind)).build fallback

/-- The vault of a configuration with settings behind it. -/
def ofConfig (fallback : Random) (config : Config) (settings : List Setting) : Result Vault := do
  (← settings.foldlM Draft.apply (← Draft.ofConfig config)).build fallback

namespace Draft

variable {draft draft' : Draft} {setting : Setting} {settings : List Setting} {kind : Kind}

/-! ## What one setting does -/

theorem setSpec_eq_ok_iff {spec : Spec} :
    draft.setSpec spec = .ok draft' ↔
      ∃ kdf, spec.kdf = .ok kdf ∧ draft' = { draft with kdf := some kdf } := by
  rw [setSpec, bind_eq_ok_iff]
  refine exists_congr fun kdf => and_congr_right fun _ => ?_
  exact ⟨fun h => (Except.ok.inj h).symm, fun h => congrArg Except.ok h.symm⟩

theorem setProperties_eq_ok_iff {p : Properties} :
    draft.setProperties p = .ok draft' ↔
      ∃ spec kdf, Spec.ofProperties p = .ok spec ∧ spec.kdf = .ok kdf ∧
        draft' = { draft with kdf := some kdf } := by
  rw [setProperties, bind_eq_ok_iff]
  simp only [setSpec_eq_ok_iff, exists_and_left]

/-- **What a setting does**: the part it gives a value has that value, the others the one they
had. -/
theorem eq_of_apply (h : draft.apply setting = .ok draft') :
    draft' = { draft with
      kdf := setting.kdf?.or draft.kdf
      password := setting.password?.or draft.password
      codec := setting.codec?.getD draft.codec
      random := setting.random?.or draft.random } := by
  cases setting with
  | spec spec =>
    obtain ⟨kdf, hkdf, rfl⟩ := setSpec_eq_ok_iff.mp h
    rw [Setting.kdf?, hkdf]
    rfl
  | properties p =>
    obtain ⟨spec, kdf, hspec, hkdf, rfl⟩ := setProperties_eq_ok_iff.mp h
    rw [Setting.kdf?, kdfOf?, bind_eq_ok_iff.mpr ⟨spec, hspec, hkdf⟩]
    rfl
  | codecName name =>
    obtain ⟨codec, hcodec, h⟩ := bind_eq_ok_iff.mp h
    obtain rfl := Except.ok.inj h
    rw [Setting.codec?, hcodec]
    rfl
  | _ =>
    obtain rfl := Except.ok.inj h
    rfl

theorem exists_apply_iff : (∃ draft', draft.apply setting = .ok draft') ↔ setting.Accepted := by
  cases setting with
  | spec spec =>
    simp only [apply, setSpec_eq_ok_iff, Setting.Accepted]
    exact ⟨fun ⟨_, kdf, h, _⟩ => ⟨kdf, h⟩, fun ⟨kdf, h⟩ => ⟨_, kdf, h, rfl⟩⟩
  | properties p =>
    simp only [apply, setProperties_eq_ok_iff, Setting.Accepted]
    exact ⟨fun ⟨_, spec, kdf, hspec, h, _⟩ => ⟨spec, kdf, hspec, h⟩,
      fun ⟨spec, kdf, hspec, h⟩ => ⟨_, spec, kdf, hspec, h, rfl⟩⟩
  | codecName name =>
    simp only [apply, exists_bind_eq_ok_iff, exists_pure_eq_ok, and_true, Setting.Accepted]
  | _ => exact iff_of_true ⟨_, rfl⟩ trivial

/-- **Settings in a row make the draft of what was last given.** -/
theorem foldlM_apply (kind : Kind) (h : AllAccepted settings) :
    settings.foldlM Draft.apply (.ofKind kind) = .ok (.ofLast kind settings) := by
  have hstep (draft : Draft) (setting : Setting) :
      (∃ draft', draft.apply setting = .ok draft') ↔ setting.Accepted := exists_apply_iff
  obtain ⟨draft, hdraft⟩ := (exists_foldlM_iff hstep settings (ofKind kind)).mpr h
  have hkind : draft.kind = kind :=
    eq_of_foldlM Draft.kind (fun _ _ _ happly => eq_of_apply happly ▸ rfl) hdraft
  have hkdf : draft.kdf = (lastGiven Setting.kdf? settings).or none :=
    get_of_foldlM Draft.kdf (fun _ _ _ happly => eq_of_apply happly ▸ rfl) hdraft
  have hpassword : draft.password = (lastGiven Setting.password? settings).or none :=
    get_of_foldlM Draft.password (fun _ _ _ happly => eq_of_apply happly ▸ rfl) hdraft
  have hrandom : draft.random = (lastGiven Setting.random? settings).or none :=
    get_of_foldlM Draft.random (fun _ _ _ happly => eq_of_apply happly ▸ rfl) hdraft
  have hcodec : some draft.codec =
      (lastGiven Setting.codec? settings).or (some Codec.default) :=
    get_of_foldlM (fun draft => some draft.codec)
      (fun _ _ _ happly => eq_of_apply happly ▸ Option.or_some.symm) hdraft
  rw [Option.or_none] at hkdf hpassword hrandom
  rw [Option.or_some, Option.some.injEq] at hcodec
  rw [hdraft, ofLast, ← hkind, ← hkdf, ← hpassword, ← hrandom, ← hcodec]

/-! ## What comes of a draft -/

section

variable {fallback : Random} {password : Password} {kdf : Kdf}

/-- The vaults that a draft builds. -/
theorem build_eq_ok_iff {vault : Vault} :
    draft.build fallback = .ok vault ↔
      (draft.kind = .plain ∧ vault = .plain draft.codec) ∨
      (draft.kind = .aes ∧ ∃ password kdf a, draft.password = some password ∧
        draft.kdf = some kdf ∧
        AesVault.open kdf password draft.codec (draft.random.getD fallback) = .ok a ∧
        vault = .aes a) := by
  rw [build]
  split
  · next hkind => simp [hkind, eq_comm]
  · next hkind =>
    split
    · next hnone => simp [hkind, hnone]
    · next hnone => simp [hkind, hnone]
    · next password kdf hpassword hkdf =>
      simp [hkind, hpassword, hkdf, map_eq_ok_iff, @eq_comm _ vault]

theorem build_of_plain (hkind : draft.kind = .plain) :
    draft.build fallback = .ok (.plain draft.codec) := by
  rw [build, hkind]

theorem build_of_password (hkind : draft.kind = .aes) (hpassword : draft.password = none) :
    draft.build fallback = .error (.missingParameter "password") := by
  rw [build, hkind, hpassword]

theorem build_of_kdf (hkind : draft.kind = .aes) (hpassword : draft.password = some password)
    (hkdf : draft.kdf = none) : draft.build fallback = .error (.missingParameter "kdf") := by
  rw [build, hkind, hpassword, hkdf]

theorem build_of_some (hkind : draft.kind = .aes) (hpassword : draft.password = some password)
    (hkdf : draft.kdf = some kdf) :
    draft.build fallback = (AesVault.open kdf password draft.codec
      (draft.random.getD fallback)).map .aes := by
  rw [build, hkind, hpassword, hkdf]

end

/-! ## What a configuration stands for -/

variable {config : Config}

/-- The codec of a configuration is that of its draft. -/
theorem codec_of_ofConfig (h : ofConfig config = .ok draft) : draft.codec = config.codec := by
  rw [ofConfig] at h
  obtain ⟨kind, -, h⟩ := bind_eq_ok_iff.mp h
  simp only at h
  split at h
  · obtain rfl := Except.ok.inj h
    rfl
  · obtain ⟨spec, -, h⟩ := bind_eq_ok_iff.mp h
    obtain ⟨kdf, -, h⟩ := bind_eq_ok_iff.mp h
    obtain rfl := Except.ok.inj h
    rfl
  · cases h

theorem ofConfig_of_unknown (h : ∀ kind : Kind, Text.lowered config.kind ≠ kind.name) :
    ofConfig config = .error (.unsupportedType config.kind) := by
  rw [ofConfig, Config.parsedKind, Kind.ofName_of_unknown h]
  rfl

/-- Of a vault that leaves everything as it is, only the codec is looked at. -/
theorem ofConfig_plain (h : Text.lowered config.kind = Kind.plain.name) :
    ofConfig config = [.codec config.codec].foldlM Draft.apply (ofKind .plain) := by
  rw [ofConfig, Config.parsedKind, Kind.ofName_of_name h]
  rfl

theorem ofConfig_aes {p : Properties} (h : Text.lowered config.kind = Kind.aes.name)
    (hkdf : config.kdf = some p) :
    ofConfig config = [.codec config.codec, .properties p].foldlM Draft.apply (ofKind .aes) := by
  rw [ofConfig, Config.parsedKind, Kind.ofName_of_name h, hkdf, List.foldlM_cons]
  exact (bind_pure _).symm

theorem ofConfig_of_none (h : Text.lowered config.kind = Kind.aes.name) (hkdf : config.kdf = none) :
    ofConfig config = .error (.missingParameter "kdf") := by
  rw [ofConfig, Config.parsedKind, Kind.ofName_of_name h, hkdf]
  rfl

/-- Properties may as well be set as the spec that they make. -/
theorem apply_properties {p : Properties} {spec : Spec} (h : Spec.ofProperties p = .ok spec) :
    draft.apply (.properties p) = draft.apply (.spec spec) := by
  rw [apply, apply, setProperties, h]
  rfl

theorem ofConfig_of_spec {p : Properties} {spec : Spec}
    (h : Text.lowered config.kind = Kind.aes.name) (hkdf : config.kdf = some p)
    (hspec : Spec.ofProperties p = .ok spec) :
    ofConfig config = [.codec config.codec, .spec spec].foldlM Draft.apply (ofKind .aes) := by
  rw [ofConfig_aes h hkdf]
  simp only [List.foldlM_cons, apply_properties hspec]

end Draft

/-! ## What settings build -/

section

variable {fallback : Random} {kind : Kind} {settings : List Setting} {password : Password}
  {kdf : Kdf}

theorem ofSettings_eq_build (h : AllAccepted settings) :
    ofSettings fallback kind settings = (Draft.ofLast kind settings).build fallback := by
  rw [ofSettings, Draft.foldlM_apply kind h]
  rfl

/-- A configuration builds what the settings that it stands for do. -/
theorem ofConfig_eq_ofSettings {config : Config} {given : List Setting}
    (h : Draft.ofConfig config = given.foldlM Draft.apply (.ofKind kind)) :
    ofConfig fallback config settings = ofSettings fallback kind (given ++ settings) := by
  rw [ofConfig, h, ofSettings, List.foldlM_append, bind_assoc]

theorem ofSettings_plain (h : AllAccepted settings) :
    ofSettings fallback .plain settings =
      .ok (.plain ((lastGiven Setting.codec? settings).getD .default)) := by
  rw [ofSettings_eq_build h]
  exact Draft.build_of_plain rfl

theorem ofSettings_of_password (h : AllAccepted settings)
    (hpassword : lastGiven Setting.password? settings = none) :
    ofSettings fallback .aes settings = .error (.missingParameter "password") := by
  rw [ofSettings_eq_build h]
  exact Draft.build_of_password rfl hpassword

theorem ofSettings_of_kdf (h : AllAccepted settings)
    (hpassword : lastGiven Setting.password? settings = some password)
    (hkdf : lastGiven Setting.kdf? settings = none) :
    ofSettings fallback .aes settings = .error (.missingParameter "kdf") := by
  rw [ofSettings_eq_build h]
  exact Draft.build_of_kdf rfl hpassword hkdf

theorem ofSettings_eq_open (h : AllAccepted settings)
    (hpassword : lastGiven Setting.password? settings = some password)
    (hkdf : lastGiven Setting.kdf? settings = some kdf) :
    ofSettings fallback .aes settings =
      (AesVault.open kdf password ((lastGiven Setting.codec? settings).getD .default)
        ((lastGiven Setting.random? settings).getD fallback)).map .aes := by
  rw [ofSettings_eq_build h]
  exact Draft.build_of_some rfl hpassword hkdf

theorem exists_ofSettings (h : AllAccepted settings)
    (hpassword : lastGiven Setting.password? settings = some password)
    (hkdf : lastGiven Setting.kdf? settings = some kdf) (hempty : password.isEmpty = false)
    (hlen : kdf.spec.keyLength.val ∈ [16, 24, 32]) :
    ∃ vault : AesVault, ofSettings fallback .aes settings = .ok (.aes vault) ∧
      vault.kdf = kdf ∧ vault.codec = (lastGiven Setting.codec? settings).getD .default ∧
      vault.keySize.keyLength = kdf.spec.keyLength.val ∧
      vault.random = (lastGiven Setting.random? settings).getD fallback ∧
      vault.password = some password := by
  obtain ⟨vault, hopen⟩ := AesVault.exists_open hempty hlen
    ((lastGiven Setting.codec? settings).getD .default)
    ((lastGiven Setting.random? settings).getD fallback)
  obtain ⟨rfl, hcodec, hrandom, hvault⟩ := AesVault.eq_of_open hopen
  refine ⟨vault, ?_, rfl, hcodec, vault.keyLength_keySize, hrandom, hvault⟩
  rw [ofSettings_eq_open h hpassword hkdf, hopen]
  rfl

theorem refused_iff (h : AllAccepted settings)
    (hpassword : lastGiven Setting.password? settings = some password)
    (hkdf : lastGiven Setting.kdf? settings = some kdf) :
    (∃ fault, ofSettings fallback .aes settings = .error (.invalidInput fault)) ↔
      password.isEmpty = true ∨ kdf.spec.keyLength.val ∉ [16, 24, 32] := by
  constructor
  · rintro ⟨fault, hfault⟩
    by_contra hnot
    rw [not_or, Bool.not_eq_true, not_not] at hnot
    obtain ⟨vault, hvault, -⟩ := exists_ofSettings h hpassword hkdf hnot.1 hnot.2
    cases hvault.symm.trans hfault
  · intro hrefused
    rw [ofSettings_eq_open h hpassword hkdf]
    cases hempty : password.isEmpty with
    | true =>
      rw [AesVault.open_of_isEmpty hempty]
      exact ⟨_, rfl⟩
    | false =>
      have hlen := hrefused.resolve_left (by rw [hempty]; exact Bool.false_ne_true)
      rw [AesVault.open_of_keyLength hempty hlen]
      exact ⟨_, rfl⟩

end

/-- **What settings build** hangs on what they gave last. A vault that leaves everything as it is
has the codec. For an encrypting vault it is told first that a password is missing, then that a
derivation is; an empty password and keys that are no AES keys are refused; and in all other cases
the vault has the derivation, the codec, the password and the source of vectors. A configuration
stands for such settings: one of an unknown kind is rejected whatever else is in it, one of a vault
that leaves everything as it is sets its codec alone, and one of an encrypting vault its codec and
its properties, or the spec that these make. -/
theorem last_settings_decide :
    (∀ fallback settings, AllAccepted settings →
        ofSettings fallback .plain settings =
          .ok (.plain ((lastGiven Setting.codec? settings).getD .default))) ∧
      (∀ fallback settings, AllAccepted settings →
        lastGiven Setting.password? settings = none →
        ofSettings fallback .aes settings = .error (.missingParameter "password")) ∧
      (∀ fallback settings password, AllAccepted settings →
        lastGiven Setting.password? settings = some password →
        lastGiven Setting.kdf? settings = none →
        ofSettings fallback .aes settings = .error (.missingParameter "kdf")) ∧
      (∀ fallback settings password kdf, AllAccepted settings →
        lastGiven Setting.password? settings = some password →
        lastGiven Setting.kdf? settings = some kdf →
        ((∃ fault, ofSettings fallback .aes settings = .error (.invalidInput fault)) ↔
          password.isEmpty = true ∨ kdf.spec.keyLength.val ∉ [16, 24, 32]) ∧
        (password.isEmpty = false → kdf.spec.keyLength.val ∈ [16, 24, 32] →
          ∃ vault : AesVault, ofSettings fallback .aes settings = .ok (.aes vault) ∧
            vault.kdf = kdf ∧ vault.codec = (lastGiven Setting.codec? settings).getD .default ∧
            vault.keySize.keyLength = kdf.spec.keyLength.val ∧
            vault.random = (lastGiven Setting.random? settings).getD fallback ∧
            vault.password = some password)) ∧
      (∀ config : Config, (∀ kind : Kind, Text.lowered config.kind ≠ kind.name) →
        Draft.ofConfig config = .error (.unsupportedType config.kind)) ∧
      (∀ config : Config, Text.lowered config.kind = Kind.plain.name →
        Draft.ofConfig config = [.codec config.codec].foldlM Draft.apply (.ofKind .plain)) ∧
      (∀ config : Config, Text.lowered config.kind = Kind.aes.name → config.kdf = none →
        Draft.ofConfig config = .error (.missingParameter "kdf")) ∧
      (∀ (config : Config) p, Text.lowered config.kind = Kind.aes.name → config.kdf = some p →
        Draft.ofConfig config =
          [.codec config.codec, .properties p].foldlM Draft.apply (.ofKind .aes)) ∧
      (∀ (config : Config) p spec, Text.lowered config.kind = Kind.aes.name →
        config.kdf = some p → Spec.ofProperties p = .ok spec →
        Draft.ofConfig config =
          [.codec config.codec, .spec spec].foldlM Draft.apply (.ofKind .aes)) ∧
      ∀ fallback (config : Config) spec settings, Text.lowered config.kind = Kind.aes.name →
        config.kdf = some (.ofSpec spec) →
        ofConfig fallback config settings =
          ofSettings fallback .aes (.codec config.codec :: .spec spec :: settings) := by
  refine ⟨fun _ _ => ofSettings_plain, fun _ _ => ofSettings_of_password,
    fun _ _ _ => ofSettings_of_kdf,
    fun _ _ _ _ h hpassword hkdf => ⟨refused_iff h hpassword hkdf, fun hempty hlen =>
      exists_ofSettings h hpassword hkdf hempty hlen⟩,
    fun _ => Draft.ofConfig_of_unknown, fun _ => Draft.ofConfig_plain,
    fun _ => Draft.ofConfig_of_none, fun _ _ => Draft.ofConfig_aes,
    fun _ _ _ => Draft.ofConfig_of_spec, fun fallback config spec settings h hkdf => ?_⟩
  exact ofConfig_eq_ofSettings (Draft.ofConfig_of_spec h hkdf spec.ofProperties_ofSpec)

theorem last_settings_decide_of_samples :
    let fallback : Random := .ofStream UInt8.ofNat
    let spec : Spec := .legacy .md5 ⟨24, by decide, by decide⟩
    let kdf : Kdf := ⟨spec, rfl⟩
    let password : Password := ⟨[112]⟩
    ofSettings fallback .plain [.codec .base64, .codecName "HEX", .kdf kdf] = .ok (.plain .hex) ∧
      ofSettings fallback .aes [.kdf kdf] = .error (.missingParameter "password") ∧
      ofSettings fallback .aes [.password password] = .error (.missingParameter "kdf") ∧
      (∃ fault, ofSettings fallback .aes [.password password, .kdf kdf, .password ⟨[]⟩] =
        .error (.invalidInput fault)) ∧
      (∃ vault : AesVault, ofSettings fallback .aes
          [.password ⟨[]⟩, .codec .base64, .spec spec, .password password] = .ok (.aes vault) ∧
        vault.kdf = kdf ∧ vault.codec = .base64 ∧ vault.keySize.keyLength = 24 ∧
        vault.password = some password) ∧
      Draft.ofConfig { kind := "twofish", kdf := some (.ofSpec spec) } =
        .error (.unsupportedType "twofish") ∧
      Draft.ofConfig { kind := "none", kdf := some (.ofSpec spec) } = .ok (.ofKind .plain) ∧
      Draft.ofConfig { kind := "aes" } = .error (.missingParameter "kdf") ∧
      Draft.ofConfig { kind := "AES", codec := .base64, kdf := some {} } =
        [.codec .base64, .properties {}].foldlM Draft.apply (.ofKind .aes) ∧
      Draft.ofConfig { codec := .base64, kdf := some (.ofSpec spec) } =
        [.codec .base64, .spec spec].foldlM Draft.apply (.ofKind .aes) ∧
      ofConfig fallback { codec := .base64, kdf := some (.ofSpec spec) } [.password password] =
        ofSettings fallback .aes [.codec .base64, .spec spec, .password password] := by
  intro fallback spec kdf password
  obtain ⟨hplain, hnoPassword, hnoKdf, hopened, hunknown, hcodec, hnone, hproperties, hspec,
    hconfig⟩ := last_settings_decide
  have hkdf : spec.kdf = .ok kdf := rfl
  have haes : Text.lowered "aes" = Kind.aes.name := by decide +kernel
  refine ⟨?_, ?_, ?_, ?_, ?_, ?_, ?_, ?_, ?_, ?_, ?_⟩
  · have hnamed : ∃ codec, Codec.ofName "HEX" = .ok codec := ⟨.hex, by decide +kernel⟩
    refine hplain fallback [.codec .base64, .codecName "HEX", .kdf kdf] ?_
    simp [AllAccepted, Setting.Accepted, hnamed]
  · refine hnoPassword _ _ ?_ rfl
    simp [AllAccepted, Setting.Accepted]
  · refine hnoKdf _ _ password ?_ rfl rfl
    simp [AllAccepted, Setting.Accepted]
  · obtain ⟨hrefused, -⟩ := hopened fallback [.password password, .kdf kdf, .password ⟨[]⟩] ⟨[]⟩ kdf
      (by simp [AllAccepted, Setting.Accepted]) rfl rfl
    exact hrefused.mpr (.inl rfl)
  · obtain ⟨-, hvault⟩ := hopened fallback
      [.password ⟨[]⟩, .codec .base64, .spec spec, .password password] password kdf
      (by simp [AllAccepted, Setting.Accepted, hkdf]) rfl rfl
    obtain ⟨vault, hvault, hspec, hcodec, hsize, -, hpassword⟩ := hvault rfl (by decide)
    exact ⟨vault, hvault, hspec, hcodec, hsize, hpassword⟩
  · refine hunknown _ fun kind => ?_
    cases kind <;> decide +kernel
  · exact hcodec { kind := "none", kdf := some (.ofSpec spec) } (by decide +kernel)
  · exact hnone { kind := "aes" } haes rfl
  · exact hproperties { kind := "AES", codec := .base64, kdf := some {} } {} (by decide +kernel) rfl
  · exact hspec { codec := .base64, kdf := some (.ofSpec spec) } _ spec haes rfl
      spec.ofProperties_ofSpec
  · exact hconfig fallback { codec := .base64, kdf := some (.ofSpec spec) } spec _ haes rfl

end Vault

end Strongbox
