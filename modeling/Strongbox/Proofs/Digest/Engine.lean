import Mathlib.Data.List.DropRight
import Strongbox.Proofs.Digest.Standard
import Strongbox.Proofs.Run

/-!
# Runs of a digest engine

An engine is asked in any order to take a piece, to drop what it took, and to give the digest, be
it as bytes or into a buffer. What it holds at any time is what it took since it was last fresh,
and that alone decides what it gives.

## Main definitions

* `Engine.Call`, `Engine.Answer`, `Engine.perform`: what an engine can be asked, and its answers
* `Engine.fed digest calls`: what was fed since an engine was last fresh

## Main results

* `Engine.stateAfter_engine`: an engine after a run is a fresh one that was fed that at once
* `Engine.run_gives_standard`: every digest given in a run is that of the standard
-/

namespace Strongbox.Digest.Engine

/-- What an engine can be asked. -/
inductive Call where
  /-- To take a piece. -/
  | update (piece : Bytes)
  /-- To drop what it took. -/
  | reset
  /-- To give the digest. -/
  | finish
  /-- To write the digest into a buffer, from an offset on. -/
  | finishInto (buffer : Bytes) (offset : Nat)

/-- What an engine answers. -/
inductive Answer where
  /-- Nothing, but it is done. -/
  | done
  /-- The digest. -/
  | digest (hash : Bytes)
  /-- The buffer as it is afterwards, and whether that went well. -/
  | buffer (buffer : Bytes) (outcome : Result Unit)
deriving DecidableEq

/-- The answer to a call, and the engine after it. -/
def perform (engine : Engine) : Call → Answer × Engine
  | .update piece => (.done, engine.update piece)
  | .reset => (.done, engine.reset)
  | .finish => (.digest engine.finish.1, engine.finish.2)
  | .finishInto buffer offset =>
    match engine.finishInto buffer offset with
    | .ok (written, next) => (.buffer written (.ok ()), next)
    | .error error => (.buffer buffer (.error error), engine)

namespace Call

/-- Whether a call leaves a fresh engine: a reset does, and so does a digest that was given. -/
def clears (digest : Digest) : Call → Bool
  | .update _ => false
  | .reset => true
  | .finish => true
  | .finishInto buffer offset => digest.hashLength ≤ buffer.length - offset

/-- What a call feeds. -/
def input : Call → Bytes
  | .update piece => piece
  | _ => []

end Call

/-- What was fed since an engine was last fresh. -/
def fed (digest : Digest) (calls : List Call) : Bytes :=
  (calls.rtakeWhile fun call => !call.clears digest).flatMap Call.input

@[simp] theorem fed_nil (digest : Digest) : fed digest [] = [] := rfl

theorem fed_snoc_of_clears {digest : Digest} {call : Call} (h : call.clears digest = true)
    (calls : List Call) : fed digest (calls ++ [call]) = [] := by
  rw [fed, List.rtakeWhile_concat_neg _ _ _ (by simp [h]), List.flatMap_nil]

theorem fed_snoc_of_not_clears {digest : Digest} {call : Call} (h : call.clears digest = false)
    (calls : List Call) : fed digest (calls ++ [call]) = fed digest calls ++ call.input := by
  rw [fed, List.rtakeWhile_concat_pos _ _ _ (by simp [h]), List.flatMap_append]
  simp [fed]

theorem finishInto_of_le (engine : Engine) {buffer : Bytes} {offset : Nat}
    (h : engine.digest.hashLength ≤ buffer.length - offset) :
    engine.finishInto buffer offset =
      .ok (Bytes.splice buffer offset engine.finish.1, engine.digest.engine) :=
  if_neg (Nat.not_lt_of_le h)

theorem finishInto_of_lt (engine : Engine) {buffer : Bytes} {offset : Nat}
    (h : buffer.length - offset < engine.digest.hashLength) :
    engine.finishInto buffer offset =
      .error (.bufferTooShort engine.digest.hashLength (buffer.length - offset)) :=
  if_pos h

/-- What a call leaves behind: a fresh engine, or one that was fed the input of the call. -/
theorem perform_snd (engine : Engine) (call : Call) :
    (engine.perform call).2 =
      if call.clears engine.digest then engine.digest.engine else engine.update call.input := by
  cases call with
  | update piece => rfl
  | reset => rfl
  | finish => rfl
  | finishInto buffer offset =>
    rcases Nat.lt_or_ge (buffer.length - offset) engine.digest.hashLength with hlt | hle
    · rw [perform, finishInto_of_lt engine hlt, if_neg (by simpa [Call.clears] using hlt)]
      rfl
    · rw [perform, finishInto_of_le engine hle, if_pos (by simpa [Call.clears] using hle)]

/-- **An engine after a run** is a fresh one that was fed at once what was fed since the engine was
last fresh, however it was cut. -/
theorem stateAfter_engine (digest : Digest) (calls : List Call) :
    Run.stateAfter perform digest.engine calls = digest.engine.update (fed digest calls) := by
  refine Run.stateAfter_induction perform digest.engine
    (P := fun calls engine => engine = digest.engine.update (fed digest calls)) rfl ?_ calls
  rintro calls _ call rfl
  have hdigest : (digest.engine.update (fed digest calls)).digest = digest := rfl
  rw [perform_snd, hdigest]
  -- a call that clears leaves nothing of what was fed, and any other one adds its input
  cases h : call.clears digest with
  | true =>
    rw [fed_snoc_of_clears h, if_pos rfl]
    rfl
  | false =>
    rw [fed_snoc_of_not_clears h, if_neg Bool.false_ne_true]
    simp only [update, engine, Scheme.Stream.update_append]

theorem update_update (engine : Engine) (a b : Bytes) :
    (engine.update a).update b = engine.update (a ++ b) := by
  simp only [update, Scheme.Stream.update_append]

theorem finish_update (digest : Digest) (message : Bytes) :
    (digest.engine.update message).finish = (digest.hash message, digest.engine) := by
  rw [finish, update, engine, Scheme.Stream.finish_update digest.lawful]
  rfl

/-- **Every digest given in a run is that of the standard**, of what was fed since the engine was
last fresh, and leaves a fresh engine. Written into a buffer it changes the bytes at the offset and
no others; where there is too little room for it, that is told, and neither the buffer nor what was
fed is touched. -/
theorem run_gives_standard (digest : Digest) (calls : List Call) (i : Nat)
    (hfew : (fed digest (calls.take i)).length < 2 ^ 61) :
    let hash := digest.hash (fed digest (calls.take i))
    IsStandard digest (fed digest (calls.take i)) hash ∧
    hash.length = digest.hashLength ∧
    (calls[i]? = some .finish →
      (Run.answers perform digest.engine calls)[i]? = some (.digest hash) ∧
      Run.stateAfter perform digest.engine (calls.take (i + 1)) = digest.engine) ∧
    ∀ buffer offset, calls[i]? = some (.finishInto buffer offset) →
      (digest.hashLength ≤ buffer.length - offset →
        (∃ written,
          (Run.answers perform digest.engine calls)[i]? = some (.buffer written (.ok ())) ∧
          ∀ j, written[j]? =
            if offset ≤ j ∧ j < offset + digest.hashLength then hash[j - offset]?
            else buffer[j]?) ∧
        Run.stateAfter perform digest.engine (calls.take (i + 1)) = digest.engine) ∧
      (buffer.length - offset < digest.hashLength →
        (Run.answers perform digest.engine calls)[i]? = some (.buffer buffer
          (.error (.bufferTooShort digest.hashLength (buffer.length - offset)))) ∧
        Run.stateAfter perform digest.engine (calls.take (i + 1)) =
          Run.stateAfter perform digest.engine (calls.take i) ∧
        fed digest (calls.take (i + 1)) = fed digest (calls.take i)) := by
  intro hash
  set message := fed digest (calls.take i) with hmessage
  have hfinish := finish_update digest message
  refine ⟨isStandard_hash digest hfew, digest.length_hash _, fun hcall => ?_,
    fun buffer offset hcall => ⟨fun hle => ?_, fun hlt => ?_⟩⟩
  · rw [Run.getElem?_answers, Run.stateAfter_take_succ _ _ hcall, hcall, stateAfter_engine,
      ← hmessage, Option.map_some, perform, hfinish]
    exact ⟨rfl, rfl⟩
  · have hinto := finishInto_of_le (digest.engine.update message) hle
    rw [hfinish] at hinto
    rw [Run.getElem?_answers, Run.stateAfter_take_succ _ _ hcall, hcall, stateAfter_engine,
      ← hmessage, Option.map_some, perform, hinto]
    refine ⟨⟨_, rfl, fun j => ?_⟩, rfl⟩
    have hpos := digest.hashLength_pos
    rw [Bytes.getElem?_splice (by omega), digest.length_hash]
  · have hinto := finishInto_of_lt (digest.engine.update message) hlt
    rw [Run.getElem?_answers, Run.stateAfter_take_succ _ _ hcall, hcall, stateAfter_engine,
      ← hmessage, Option.map_some, perform, hinto]
    refine ⟨rfl, rfl, ?_⟩
    have hkeeps : (Call.finishInto buffer offset).clears digest = false := by
      simpa [Call.clears] using hlt
    rw [List.take_add_one, hcall, Option.toList_some, fed_snoc_of_not_clears hkeeps, ← hmessage]
    exact List.append_nil _

/-- Three bytes in two pieces, with a digest refused for want of room between them. -/
theorem run_gives_digest_of_abc :
    let calls : List Call := [.update [97], .finishInto (List.replicate 16 0) 1,
      .update [98, 99], .finish]
    (fed .md5 (calls.take 3)).length < 2 ^ 61 ∧
      (Run.answers perform Digest.md5.engine calls)[1]? =
        some (.buffer (List.replicate 16 0) (.error (.bufferTooShort 16 15))) ∧
      (Run.answers perform Digest.md5.engine calls)[3]? = some (.digest [0x90, 0x01, 0x50, 0x98,
        0x3c, 0xd2, 0x4f, 0xb0, 0xd6, 0x96, 0x3f, 0x7d, 0x28, 0xe1, 0x7f, 0x72]) := by
  intro calls
  have hfew : (fed .md5 (calls.take 3)).length < 2 ^ 61 := by decide
  have hrefused := ((run_gives_standard .md5 calls 1 (by decide)).2.2.2 _ 1 rfl).2 (by decide)
  have hgiven := ((run_gives_standard .md5 calls 3 hfew).2.2.1 rfl).1
  have hhash : Digest.md5.hash (fed .md5 (calls.take 3)) = [0x90, 0x01, 0x50, 0x98, 0x3c, 0xd2,
      0x4f, 0xb0, 0xd6, 0x96, 0x3f, 0x7d, 0x28, 0xe1, 0x7f, 0x72] := by decide +kernel
  exact ⟨hfew, hrefused.1, hhash ▸ hgiven⟩

end Strongbox.Digest.Engine
