import Strongbox.Proofs.Command.RoundTrip
import Strongbox.Proofs.Vault.Integers

/-!
# Deriving the keys of a vault

A command prints the key that is derived from a password with a document of a spec and a salt. If a
configuration has that document in it, the keys of its vault are derived in the same way, each with
the vector of a payload as salt; so the key that is printed for the first block of a payload is the
key of the rest of it.

## Main definitions

* `Command.Reproduces`: the key that is printed for a payload decrypts it

## Main results

* `Command.outcome_derive`: what is delivered when a key is derived
* `Command.reproduces_of_sealed`: payloads are decrypted with keys that are printed
* `Command.derive_reproduces_keys`: the same for all vaults of configurations with a document in
  them
-/

namespace Strongbox

open Json
open Text.Utf8 (encode)

namespace Command

open Vault (Config Draft)
open Strongbox.Derivation (Properties Spec)

/-- What is delivered when a key is derived. -/
theorem outcome_derive {around : Surroundings} {path text salt password : String} {spec : Spec}
    {kdf : Kdf} {saltBytes : Bytes} {key : DerivedKey}
    (hfile : around.read path = .ok (encode text)) (hspec : Spec.ofJson text = .ok spec)
    (hsalt : Codec.hex.decode salt = .ok saltBytes) (hpassword : around.password = some password)
    (hkdf : spec.kdf = .ok kdf)
    (hkey : kdf.deriveKey (Password.ofText password).bytes saltBytes = .ok key) :
    (around.derive path salt).outcome =
      .ok ⟨none, encode (Codec.hex.encode key.bytes ++ "\n"), none⟩ := by
  simp only [Surroundings.derive, Journal.outcome_bind, bind_eq_ok_iff, outcome_within,
    Journal.outcome_lift, Journal.outcome_note, Journal.outcome_deriveKey, outcome_readPassword]
  exact ⟨spec, outcome_loadSpec hfile hspec, saltBytes, hsalt, _, ⟨password, hpassword, rfl⟩, (),
    trivial, kdf, hkdf, key, hkey, rfl⟩

/-- Hexadecimal digits are no option. -/
theorem isValue_hex (data : Bytes) : isValue (Codec.hex.encode data) = true := by
  cases data with
  | nil => decide
  | cons b data =>
    have hdigit : ∀ value < 16, Hex.digit value ≠ '-' := by decide
    have hb := b.toNat_lt
    rw [isValue, Codec.encode, String.toList_ofList, Hex.encode, List.flatMap_cons, Hex.pair]
    split
    · next heq => exact absurd (List.cons.inj heq).1 (hdigit _ (by omega))
    · rfl

/-- A command that derives a key. -/
theorem parse?_derive {path salt : String} (hpath : isValue path = true)
    (hfilled : path.isEmpty = false) (hsalt : isValue salt = true) :
    parse? ["derive", "-k", path, "-s", salt] = some (.act false (.derive path salt)) := by
  have hkdfWord : word [.kdf, .salt] "-k" = .pending .kdf := by decide +kernel
  have hsaltWord : word [.kdf, .salt] "-s" = .pending .salt := by decide +kernel
  have hflags : flags? false "derive" = none := by decide +kernel
  have haction : action? "derive" ["-k", path, "-s", salt] = some (.derive path salt) := by
    simp only [action?, options?, hkdfWord, hsaltWord, hpath, hsalt, add?, hfilled]
    rfl
  rw [parse?, parseFrom?, hflags, haction]
  rfl

/-- Whatever command derives a key from `text` and `password`, with the first block of `payload` as
salt, it prints the key under which the rest of `payload` is `data`. -/
def Reproduces (text password : String) (payload data : Bytes) : Prop :=
  ∀ (arguments : List String) (verbose : Bool) (path : String) (files : Files) (stdin : Bytes)
    (random : Random),
    parse? arguments = some (.act verbose (.derive path (Codec.hex.encode (payload.take 16)))) →
    files.readAt path = .ok (encode text) →
    ∃ key log, answer arguments files stdin (some password) random =
        (⟨0, encode (Codec.hex.encode key ++ "\n"), log, []⟩, files) ∧
      Codec.hex.decode (Codec.hex.encode key) = .ok key ∧
      Cipher.decrypt key (payload.take 16) (payload.drop 16) = .ok data

/-- **What is sealed is decrypted with the key that is printed** for its vector. -/
theorem reproduces_of_sealed {text password : String} {spec : Spec} {kdf : Kdf}
    {iv data payload : Bytes} (hspec : Spec.ofJson text = .ok spec) (hkdf : spec.kdf = .ok kdf)
    (hlen : spec.keyLength.val ∈ [16, 24, 32]) (hiv : iv.length = 16)
    (h : Vault.Sealed kdf (.ofText password) iv data payload) :
    Reproduces text password payload data := by
  obtain ⟨key, ciphertext, hkey, hcipher, rfl⟩ := h
  have htake : (iv ++ ciphertext).take 16 = iv := hiv ▸ List.take_left
  have hdrop : (iv ++ ciphertext).drop 16 = ciphertext := hiv ▸ List.drop_left
  obtain rfl := Spec.spec_of_kdf hkdf
  have hkeyLen : key.bytes.length = kdf.spec.keyLength.val := Kdf.length_of_deriveKey hkey
  obtain ⟨keys, start, hset⟩ := Cipher.exists_setUp (hkeyLen ▸ hlen) hiv
  intro arguments verbose path files stdin random hparse hread
  rw [htake] at hparse
  rw [htake, hdrop]
  let around := surroundings files stdin (some password) random
  let output := encode (Codec.hex.encode key.bytes ++ "\n")
  have hdelivery : (deliver around (.derive path (Codec.hex.encode iv))).outcome =
      .ok ⟨none, output, none⟩ :=
    outcome_derive hread hspec (Codec.decode_encode .hex iv) rfl hkdf hkey
  obtain ⟨log, hact⟩ : ∃ log, act verbose (.derive path (Codec.hex.encode iv)) around files =
      (⟨0, output, log, []⟩, files) := exists_act hdelivery rfl
  simp only [answer, hparse]
  exact ⟨key.bytes, log, hact, Codec.decode_encode .hex key.bytes,
    (Cipher.decrypt_eq_ok_iff hset).mpr hcipher⟩

/-- **A command derives the keys of a vault.** A document of a spec that can run with keys of an AES
length may be put into any configuration as it is, and every configuration of an encrypting
vault that has it opens one with any password that is not empty. Whatever that vault encrypts, the
key that is derived from the document, the password and the first block of the payload is printed,
and decrypts the rest. -/
theorem derive_reproduces_keys :
    ∀ text spec kdf value, Spec.ofJson text = .ok spec → spec.kdf = .ok kdf →
      spec.keyLength.val ∈ [16, 24, 32] → Alone (· = value) (encode text) →
      (∃ p, Spec.ofProperties p = .ok spec ∧ ∀ (config : Config) data,
        Alone (Config.parts.GivesOtherwise config.Shows config.Due .kdf value) data →
        Config.ReadAs { config with kdf := some p } data) ∧
      ∀ (config : Config) members data, Alone (IsObject members) data → ("kdf", value) ∈ members →
        Config.ofBytes data = .ok config → Text.lowered config.kind = Vault.Kind.aes.name →
        ∀ password random, (Password.ofText password).isEmpty = false →
          (∃ vault, Opens config password random vault) ∧
          ∀ vault, Opens config password random vault → ∀ plain,
            ∃ payload next, vault.encrypt plain = .ok (payload, next) ∧
              Reproduces text password payload plain := by
  intro text spec kdf value hspec hkdf hlen htext
  obtain ⟨p, hp, hproperties⟩ := bind_eq_ok_iff.mp hspec
  rw [mapError_eq_ok_iff] at hp
  refine ⟨⟨p, hproperties, ?_⟩, ?_⟩
  · intro config data hdata
    exact Config.readAs_of_decode fun source => Config.decode_with_kdf hp htext source hdata
  · intro config members data hobject hmem hconfig hkind password random hpassword
    rw [Config.ofBytes, mapError_eq_ok_iff] at hconfig
    have hconfigKdf := Config.kdf_of_decode hp htext hmem hobject hconfig
    simp only [opens_iff_open hkind hconfigKdf hproperties hkdf]
    obtain rfl := Spec.spec_of_kdf hkdf
    refine ⟨?_, ?_⟩
    · obtain ⟨a, ha⟩ := AesVault.exists_open hpassword hlen config.codec random
      exact ⟨.aes a, a, ha, rfl⟩
    · rintro _ ⟨a, ha, rfl⟩ plain
      obtain ⟨hkdfA, -, -, hpasswordA⟩ := AesVault.eq_of_open ha
      obtain ⟨payload, hsealed, hencrypt⟩ := AesVault.exists_encrypt hpasswordA plain
      refine ⟨payload, .aes _, by rw [Vault.encrypt, hencrypt]; rfl, ?_⟩
      rw [hkdfA] at hsealed
      exact reproduces_of_sealed hspec hkdf hlen (Iv.length_bytes _) hsealed

theorem derive_reproduces_keys_of_sample :
    let text := "\x7b\"function\":\"openssl\"\x7d"
    let files : Files := [(["k"], encode text)]
    let random := Random.ofStream UInt8.ofNat
    ∃ config vault payload next key log,
      Config.ofBytes (encode "\x7b\"kdf\":\x7b\"function\":\"openssl\"\x7d\x7d") = .ok config ∧
      Opens config "p" random vault ∧ vault.encrypt [104, 105] = .ok (payload, next) ∧
      answer ["derive", "-k", "k", "-s", Codec.hex.encode (payload.take 16)] files [] (some "p")
        random = (⟨0, encode (Codec.hex.encode key ++ "\n"), log, []⟩, files) ∧
      Cipher.decrypt key (payload.take 16) (payload.drop 16) = .ok [104, 105] := by
  intro text files random
  have hliteral : "\x7b\"function\":\"openssl\"\x7d" = text := rfl
  let spec : Spec := .legacy .md5 ⟨16, by decide, by decide⟩
  have hproperties := Properties.ofJson_toJson (.ofFunction "openssl")
  have hspec : Spec.ofJson "\x7b\"function\":\"openssl\"\x7d" = .ok spec :=
    bind_eq_ok_iff.mpr ⟨.ofFunction "openssl",
      congrArg (Except.mapError Error.serialization) hproperties, rfl⟩
  have htext : openBrace :: membersTail true [("function", encode (quoted "openssl"))] =
      encode "\x7b\"function\":\"openssl\"\x7d" := by decide
  have hdata : openBrace :: membersTail true
        [("kdf", encode "\x7b\"function\":\"openssl\"\x7d")] =
      encode "\x7b\"kdf\":\x7b\"function\":\"openssl\"\x7d\x7d" := by decide
  rw [hliteral] at hspec htext hdata
  clear_value text
  generalize encode "\x7b\"kdf\":\x7b\"function\":\"openssl\"\x7d\x7d" = data at hdata ⊢
  have hvalue : IsValue (encode text) := by
    have hname : IsValue (encode (quoted "openssl")) := (Spells.string "openssl").isValue
    rw [← htext]
    exact (isObject_membersTail (List.forall_mem_singleton.mpr hname)).isValue
  have hobject : IsObject [("kdf", encode text)]
      (openBrace :: membersTail true [("kdf", encode text)]) :=
    isObject_membersTail (List.forall_mem_singleton.mpr hvalue)
  have hgives := Config.givesOtherwise_kdf hvalue
  rw [hdata] at hobject hgives
  have hkind : Text.lowered Vault.Kind.default.name = Vault.Kind.aes.name := by decide +kernel
  obtain ⟨⟨p, -, haccepts⟩, hderives⟩ :=
    derive_reproduces_keys text spec ⟨spec, rfl⟩ (encode text) hspec rfl (by decide)
      (alone_self rfl)
  obtain ⟨hconfig, -⟩ := haccepts {} data (alone_self hgives)
  obtain ⟨⟨vault, hopens⟩, hvaults⟩ := hderives _ [("kdf", encode text)] data (alone_self hobject)
    List.mem_cons_self hconfig hkind "p" random (by decide)
  obtain ⟨payload, next, hencrypt, hreproduces⟩ := hvaults vault hopens [104, 105]
  have hparse : parse? ["derive", "-k", "k", "-s", Codec.hex.encode (payload.take 16)] =
      some (.act false (.derive "k" (Codec.hex.encode (payload.take 16)))) :=
    parse?_derive (by decide) (by decide) (isValue_hex _)
  obtain ⟨key, log, hanswer, -, hdecrypt⟩ := hreproduces _ _ _ files [] random hparse rfl
  exact ⟨_, vault, payload, next, key, log, hconfig, hopens, hencrypt, hanswer, hdecrypt⟩

end Command

end Strongbox
