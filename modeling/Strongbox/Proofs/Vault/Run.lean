import Mathlib.Data.List.TakeWhile
import Strongbox.Proofs.Codec
import Strongbox.Proofs.Run
import Strongbox.Proofs.Vault.Basic

/-!
# Runs of a vault

A vault is asked in any order to encrypt, to decrypt, to close, and whether it is closed. An open
vault is told from the one it was at first only by the vectors it has drawn, one block for each
payload. The first close takes the password away, and after it nothing changes any more.

## Main definitions

* `Vault.Call`, `Vault.Answer`, `Vault.perform`: what a vault can be asked, and its answers
* `Vault.payloads calls`: the number of payloads made in a run, `AesVault.after`: what a run
  makes of an encrypting vault
* `Vault.OpenAnswer`, `Vault.closedAnswer`: what is answered before and after the first close

## Main results

* `Vault.stateAfter_aes`: the state after a run
* `Vault.run_of_open`: every answer of every run of a vault that was opened
-/

namespace Strongbox

/-- The block of a source in front of which there are `k` others. -/
def Random.block (random : Random) (k : Nat) : Bytes :=
  (List.range 16).map fun j => random.stream (random.drawn + 16 * k + j)

namespace Vault

/-! ## Calls and answers -/

/-- What a vault can be asked. -/
inductive Call where
  /-- To encrypt a byte string. -/
  | encrypt (data : Bytes)
  /-- To encrypt a byte string and to write the payload as a text. -/
  | encryptEncoded (data : Bytes)
  /-- To decrypt a payload. -/
  | decrypt (payload : Bytes)
  /-- To decrypt a payload given as a text. -/
  | decryptEncoded (text : String)
  /-- To close. -/
  | close
  /-- Whether it is closed. -/
  | isDestroyed
  /-- Whether it can encrypt. -/
  | canEncrypt
  /-- Whether it can decrypt. -/
  | canDecrypt
deriving DecidableEq

/-- What a vault answers. -/
inductive Answer where
  /-- A byte string, or why there is none. -/
  | bytes (outcome : Result Bytes)
  /-- A text, or why there is none. -/
  | text (outcome : Result String)
  /-- Yes or no. -/
  | flag (yes : Bool)
  /-- Nothing, but it is done. -/
  | done
deriving DecidableEq

/-- An outcome, and the vault after it. The only failure is that of a closed vault, which draws
nothing, and leaves the vault as it is. -/
def settle {α : Type} (vault : Vault) : Result (α × Vault) → Result α × Vault
  | .ok (value, next) => (.ok value, next)
  | .error error => (.error error, vault)

/-- The answer to a call, and the vault after it. -/
def perform (vault : Vault) : Call → Answer × Vault
  | .encrypt data => (vault.settle (vault.encrypt data)).map .bytes id
  | .encryptEncoded data => (vault.settle (vault.encryptEncoded data)).map .text id
  | .decrypt payload => (.bytes (vault.decrypt payload), vault)
  | .decryptEncoded text => (.bytes (vault.decryptEncoded text), vault)
  | .close => (.done, vault.close)
  | .isDestroyed => (.flag vault.isDestroyed, vault)
  | .canEncrypt => (.flag vault.canEncrypt, vault)
  | .canDecrypt => (.flag vault.canDecrypt, vault)

/-- Whether a call asks for a payload. -/
def Call.encrypts : Call → Bool
  | .encrypt _ => true
  | .encryptEncoded _ => true
  | _ => false

/-- The number of payloads made in a run: none is made after the first close. -/
def payloads (calls : List Call) : Nat :=
  (calls.takeWhile fun call => call ≠ .close).countP Call.encrypts

theorem payloads_of_open {calls : List Call} (h : Call.close ∉ calls) :
    payloads calls = calls.countP Call.encrypts := by
  rw [payloads, List.takeWhile_eq_self_iff.mpr]
  intro call hcall
  exact decide_eq_true (ne_of_mem_of_not_mem hcall h)

theorem payloads_snoc_of_closed {calls : List Call} (h : Call.close ∈ calls) (call : Call) :
    payloads (calls ++ [call]) = payloads calls := by
  rw [payloads, List.takeWhile_append, if_neg, payloads]
  intro hlen
  have hself := (List.takeWhile_prefix _).eq_of_length hlen
  exact absurd (List.takeWhile_eq_self_iff.mp hself _ h) (by simp)

theorem payloads_snoc_of_open {calls : List Call} (h : Call.close ∉ calls) (call : Call) :
    payloads (calls ++ [call]) = payloads calls + if call.encrypts then 1 else 0 := by
  by_cases hcall : call = .close
  · subst hcall
    have htake : ∀ c ∈ calls, decide (c ≠ Call.close) = true := fun c hc =>
      decide_eq_true (ne_of_mem_of_not_mem hc h)
    rw [payloads, List.takeWhile_append_of_pos htake, payloads,
      List.takeWhile_eq_self_iff.mpr htake]
    simp [Call.encrypts]
  · have hsnoc : Call.close ∉ calls ++ [call] := by
      simpa [h] using Ne.symm hcall
    rw [payloads_of_open hsnoc, payloads_of_open h, List.countP_append, List.countP_singleton]

/-! ## One step -/

/-- What a closed vault answers. A text that does not read is told first. -/
def closedAnswer (codec : Codec) : Call → Answer
  | .encrypt _ => .bytes (.error .vaultDestroyed)
  | .encryptEncoded _ => .text (.error .vaultDestroyed)
  | .decrypt _ => .bytes (.error .vaultDestroyed)
  | .decryptEncoded text => .bytes (codec.decode text >>= fun _ => .error .vaultDestroyed)
  | .close => .done
  | .isDestroyed => .flag true
  | .canEncrypt => .flag false
  | .canDecrypt => .flag false

/-- **A closed vault refuses**, and stays as it is. -/
theorem perform_of_closed {vault : AesVault} (h : vault.password = none) (call : Call) :
    perform (.aes vault) call = (closedAnswer vault.codec call, .aes vault) := by
  have hdue : vault.passwordDue = .error .vaultDestroyed := by rw [AesVault.passwordDue, h]
  have hdecrypt : (Vault.aes vault).decrypt = fun _ => .error .vaultDestroyed := by
    funext payload
    simp only [Vault.decrypt, AesVault.decrypt, hdue, bind, Except.bind]
  have hencrypt (data : Bytes) : (Vault.aes vault).encrypt data = .error .vaultDestroyed := by
    simp only [Vault.encrypt, AesVault.encrypt, hdue, bind, Except.bind, Except.map]
  have hdestroyed : (Vault.aes vault).isDestroyed = true := by
    rw [Vault.isDestroyed, AesVault.isDestroyed, h, Option.isNone_none]
  cases call with
  | encrypt data =>
    rw [perform, hencrypt]
    rfl
  | encryptEncoded data =>
    rw [perform, encryptEncoded, hencrypt]
    rfl
  | decrypt payload => rw [perform, hdecrypt, closedAnswer]
  | decryptEncoded text =>
    rw [perform, decryptEncoded, hdecrypt]
    rfl
  | close => rw [perform, Vault.close, AesVault.close, ← h, closedAnswer]
  | isDestroyed => rw [perform, hdestroyed, closedAnswer]
  | canEncrypt =>
    rw [perform, canEncrypt, hdestroyed]
    rfl
  | canDecrypt =>
    rw [perform, canDecrypt, hdestroyed]
    rfl

/-- What an open vault answers when `iv` is the vector that it draws next, and `reads` is how it
decrypts. -/
def OpenAnswer (kdf : Kdf) (password : Password) (codec : Codec) (reads : Bytes → Result Bytes)
    (iv : Bytes) : Call → Answer → Prop
  | .encrypt data, answer =>
    ∃ payload, Sealed kdf password iv data payload ∧ answer = .bytes (.ok payload)
  | .encryptEncoded data, answer =>
    ∃ payload, Sealed kdf password iv data payload ∧
      answer = .text (.ok (codec.encode payload))
  | .decrypt payload, answer => answer = .bytes (reads payload)
  | .decryptEncoded text, answer => answer = .bytes (codec.decode text >>= reads)
  | .close, answer => answer = .done
  | .isDestroyed, answer => answer = .flag false
  | .canEncrypt, answer => answer = .flag true
  | .canDecrypt, answer => answer = .flag true

/-- What a call makes of an open vault. -/
def next (vault : AesVault) (call : Call) : AesVault :=
  if call = .close then vault.close
  else if call.encrypts then { vault with random := (vault.random.draw 16).2 }
  else vault

/-- **An open vault answers** with the vector it draws, and moves on. -/
theorem perform_of_open {vault : AesVault} {password : Password}
    (h : vault.password = some password) (call : Call) :
    OpenAnswer vault.kdf password vault.codec vault.decrypt (vault.random.draw 16).1 call
        (perform (.aes vault) call).1 ∧
      (perform (.aes vault) call).2 = .aes (next vault call) := by
  have hdestroyed : (Vault.aes vault).isDestroyed = false := by
    rw [Vault.isDestroyed, AesVault.isDestroyed, h, Option.isNone_some]
  have hencrypt (data : Bytes) : ∃ payload,
      Sealed vault.kdf password (vault.random.draw 16).1 data payload ∧
        (Vault.aes vault).encrypt data =
          .ok (payload, .aes { vault with random := (vault.random.draw 16).2 }) := by
    obtain ⟨payload, hsealed, hvault⟩ := AesVault.exists_encrypt h data
    refine ⟨payload, hsealed, ?_⟩
    rw [Vault.encrypt, hvault]
    rfl
  cases call with
  | encrypt data =>
    obtain ⟨payload, hsealed, hvault⟩ := hencrypt data
    rw [perform, hvault]
    exact ⟨⟨payload, hsealed, rfl⟩, rfl⟩
  | encryptEncoded data =>
    obtain ⟨payload, hsealed, hvault⟩ := hencrypt data
    rw [perform, encryptEncoded, hvault]
    exact ⟨⟨payload, hsealed, rfl⟩, rfl⟩
  | decrypt payload => exact ⟨rfl, rfl⟩
  | decryptEncoded text => exact ⟨rfl, rfl⟩
  | close => exact ⟨rfl, rfl⟩
  | isDestroyed => exact ⟨congrArg Answer.flag hdestroyed, rfl⟩
  | canEncrypt => exact ⟨congrArg (fun b => Answer.flag !b) hdestroyed, rfl⟩
  | canDecrypt => exact ⟨congrArg (fun b => Answer.flag !b) hdestroyed, rfl⟩

end Vault

/-! ## Runs -/

open Vault

/-- What a run makes of an encrypting vault: it has drawn one block for each payload, and its
password is gone once it was closed. -/
def AesVault.after (vault : AesVault) (calls : List Call) : AesVault :=
  { vault with
    random := ⟨vault.random.stream, vault.random.drawn + 16 * payloads calls⟩
    password := if .close ∈ calls then none else vault.password }

namespace AesVault

variable {vault : AesVault} {calls : List Call}

theorem after_snoc_of_closed (h : Call.close ∈ calls) (call : Call) :
    vault.after (calls ++ [call]) = vault.after calls := by
  rw [after, payloads_snoc_of_closed h, if_pos (List.mem_append_left _ h), after, if_pos h]

theorem after_snoc_of_open (h : Call.close ∉ calls) (call : Call) :
    vault.after (calls ++ [call]) = next (vault.after calls) call := by
  by_cases hclose : call = .close
  · subst hclose
    have hmem : Call.close ∈ calls ++ [Call.close] := List.mem_concat_self
    rw [after, payloads_snoc_of_open h, if_pos hmem, next, if_pos rfl]
    rfl
  · have hsnoc : Call.close ∉ calls ++ [call] := by simpa [h] using Ne.symm hclose
    rw [after, payloads_snoc_of_open h, if_neg hsnoc, next, if_neg hclose, after, if_neg h]
    cases call.encrypts with
    | true => rfl
    | false => rfl

theorem draw_after (vault : AesVault) (calls : List Call) :
    ((vault.after calls).random.draw 16).1 = vault.random.block (payloads calls) := rfl

/-- Decryption does not depend on what was drawn. -/
theorem decrypt_after (h : Call.close ∉ calls) : (vault.after calls).decrypt = vault.decrypt := by
  funext payload
  rw [decrypt, decrypt, passwordDue, passwordDue, after, if_neg h]

end AesVault

namespace Vault

variable {kdf : Kdf} {password : Password} {codec : Codec} {random : Random} {vault : AesVault}

/-- **The state after a run**: a step lemma for the open and one for the closed vault carry it
along. -/
theorem stateAfter_aes (h : vault.password = some password) (calls : List Call) :
    Run.stateAfter perform (.aes vault) calls = .aes (vault.after calls) := by
  refine Run.stateAfter_induction perform (.aes vault)
    (P := fun calls state => state = .aes (vault.after calls)) rfl ?_ calls
  rintro calls _ call rfl
  by_cases hclose : Call.close ∈ calls
  · rw [perform_of_closed (if_pos hclose), AesVault.after_snoc_of_closed hclose]
  · have hsome : (vault.after calls).password = some password := (if_neg hclose).trans h
    rw [(perform_of_open hsome call).2, AesVault.after_snoc_of_open hclose]

/-- A text that is refused does not read, or its payload cannot be decrypted. -/
theorem error_of_decode_decrypt (h : vault.password = some password) {text : String}
    {error : Error} (herror : (codec.decode text >>= vault.decrypt) = .error error) :
    (∃ fault, error = .codec fault) ∨ error = .decryptionFailed := by
  cases hdec : codec.decode text with
  | error fault =>
    rw [hdec] at herror
    obtain rfl := Except.error.inj herror
    exact .inl (Codec.exists_fault_of_decode hdec)
  | ok payload =>
    rw [hdec] at herror
    exact .inr (AesVault.error_of_decrypt h herror)

/-- **Every answer of every run** of a vault that was opened. Before the first close a payload is
made with the next block of the source, whatever else was asked in between, and a payload is read
in one way: it gives what is sealed in it, and otherwise that it cannot be decrypted. From the
first close on, everything is refused. -/
theorem run_of_open (hopen : AesVault.open kdf password codec random = .ok vault) :
    (∀ payload data, vault.decrypt payload = .ok data ↔
      ∃ iv, iv.length = 16 ∧ Sealed kdf password iv data payload) ∧
    (∀ payload error, vault.decrypt payload = .error error → error = .decryptionFailed) ∧
    (∀ text error, (codec.decode text >>= vault.decrypt) = .error error →
      (∃ fault, error = .codec fault) ∨ error = .decryptionFailed) ∧
    (∀ calls, Run.stateAfter perform (.aes vault) calls = .aes (vault.after calls)) ∧
    ∀ (calls : List Call) (i : Nat) (call : Call), calls[i]? = some call →
      ∃ answer, (Run.answers perform (.aes vault) calls)[i]? = some answer ∧
        (.close ∉ calls.take i →
          OpenAnswer kdf password codec vault.decrypt
            (random.block ((calls.take i).countP Call.encrypts)) call answer) ∧
        (.close ∈ calls.take i → answer = closedAnswer codec call) := by
  obtain ⟨rfl, rfl, rfl, h⟩ := AesVault.eq_of_open hopen
  refine ⟨fun payload data => AesVault.decrypt_eq_ok_iff h,
    fun payload error => AesVault.error_of_decrypt h,
    fun text error => error_of_decode_decrypt h, stateAfter_aes h, ?_⟩
  intro calls i call hcall
  rw [Run.getElem?_answers, hcall, Option.map_some, stateAfter_aes h]
  refine ⟨_, rfl, ?_, ?_⟩
  · intro hclose
    have hsome : (vault.after (calls.take i)).password = some password := (if_neg hclose).trans h
    have hanswer := (perform_of_open hsome call).1
    -- the vault on the way decrypts like the one at first, and its next block is counted
    rw [AesVault.decrypt_after hclose, AesVault.draw_after, payloads_of_open hclose] at hanswer
    exact hanswer
  · intro hclose
    rw [perform_of_closed (if_pos hclose)]
    rfl

/-- Two payloads with a question between them, and a third that is asked for too late. -/
theorem run_of_two_payloads :
    let kdf : Kdf := ⟨.legacy .md5 ⟨16, by decide, by decide⟩, rfl⟩
    let random := Random.ofStream UInt8.ofNat
    let calls : List Call := [.encrypt [104, 105], .isDestroyed, .encryptEncoded [], .close,
      .encrypt []]
    ∃ vault, AesVault.open kdf ⟨[112]⟩ .hex random = .ok vault ∧
      (∃ payload, Sealed kdf ⟨[112]⟩ ((List.range' 16 16).map UInt8.ofNat) [] payload ∧
        (Run.answers perform (.aes vault) calls)[2]? =
          some (.text (.ok (Codec.hex.encode payload)))) ∧
      (Run.answers perform (.aes vault) calls)[4]? = some (.bytes (.error .vaultDestroyed)) := by
  intro kdf random calls
  have hpassword : Password.isEmpty ⟨[112]⟩ = false := rfl
  have hlen : kdf.keyLength ∈ [16, 24, 32] := by decide
  obtain ⟨vault, hopen⟩ := AesVault.exists_open hpassword hlen .hex random
  obtain ⟨-, -, -, -, hrun⟩ := run_of_open hopen
  obtain ⟨encoded, hencoded, hopenAnswer, -⟩ := hrun calls 2 (.encryptEncoded []) rfl
  obtain ⟨late, hlate, -, hclosed⟩ := hrun calls 4 (.encrypt []) rfl
  obtain ⟨payload, hsealed, rfl⟩ := hopenAnswer (by decide)
  refine ⟨vault, hopen, ⟨payload, hsealed, hencoded⟩, ?_⟩
  rw [hlate, hclosed (by decide)]
  rfl

end Vault

end Strongbox
