import Strongbox.Proofs.Derivation.Spec

/-!
# What one setting does, and what comes of a draft

A setting gives some parameters of a draft a value and leaves the others as they are. What comes of
the draft then depends on the values of the parameters that its function uses, be they given or what
the function falls back on: first it is told that iterations are missing, then that the length of a
key is out of range, then that a count is zero, and in all other cases the spec has the values.

## Main definitions

* `Derivation.Parameter`: the parameters, `Function.parameters`: those that a function uses
* `Setting.value?`, `Draft.value?`, `Spec.value?`: the value a setting gives a parameter, and the
  one that a draft or a spec has for it
* `Draft.settled?`: the value of a parameter, be it given or not
* `Spec.Outcome`: what comes of values

## Main results

* `Draft.value?_of_apply`, `Draft.exists_apply_iff`: what one setting does
* `Draft.build_congr`, `Draft.outcome_build`: what comes of a draft
* `Outcome.missing_iff`, `Outcome.refused_iff`, `Outcome.exists_iff`, `Outcome.built_iff`: the
  outcomes told apart
-/

namespace Strongbox.Derivation

theorem Function.ofName_cases (name : String) :
    (∃ function, ofName name = .ok function) ∨
      ofName name = .error (.invalidValue "function" name) := by
  unfold ofName
  dsimp only
  split
  · exact .inl ⟨_, rfl⟩
  · exact .inr rfl

theorem digest_ofName_cases (name : String) :
    (∃ digest, Digest.ofName name = .ok digest) ∨
      Digest.ofName name = .error (.invalidValue "hashFunction" name) := by
  unfold Digest.ofName
  split
  · exact .inl ⟨_, rfl⟩
  · exact .inr rfl

theorem Positive.eq_of_val {n m : Positive} (h : n.val = m.val) : n = m := by
  cases n
  cases m
  cases h
  rfl

/-! ## Parameters -/

/-- A parameter of derivation functions. -/
inductive Parameter where
  /-- The digest. -/
  | digest
  /-- The length of a key in bytes. -/
  | keyLength
  /-- A count. -/
  | count (count : Count)
deriving DecidableEq

/-- What a parameter is given. -/
def Parameter.Value : Parameter → Type
  | .digest => Digest
  | .keyLength => Nat
  | .count _ => UInt32

/-- The counts that a function uses, in the order in which they are checked. -/
def Function.counts : Function → List Count
  | .legacy => []
  | .iteratedDigest => [.iterations]
  | .memoryHard => [.iterations, .blockSize, .parallelization]

/-- The parameters that a function uses. -/
def Function.parameters (function : Function) : List Parameter :=
  .digest :: .keyLength :: function.counts.map .count

theorem Function.forall_parameters_iff {function : Function} {P : Parameter → Prop} :
    (∀ i ∈ function.parameters, P i) ↔
      P .digest ∧ P .keyLength ∧ ∀ count ∈ function.counts, P (.count count) := by
  rw [parameters, List.forall_mem_cons, List.forall_mem_cons, List.forall_mem_map]

/-- The value of a parameter that is not given one. -/
def Function.fallback? (function : Function) : (i : Parameter) → Option i.Value
  | .digest => some function.defaultDigest
  | .keyLength => some function.defaultKeyLength
  | .count .iterations => none
  | .count .blockSize => some Draft.defaultBlockSize
  | .count .parallelization => some Draft.defaultParallelization

/-- A digest by its name, if it is one. -/
def digestNamed? (name : String) : Option Digest := (Digest.ofName name).toOption

/-- The count that properties give, if they give it. -/
def Properties.count? (p : Properties) : Count → Option UInt32
  | .iterations => p.iterations
  | .blockSize => p.blockSize
  | .parallelization => p.parallelization

/-- The setting that gives a parameter a value. -/
def Setting.giving : (i : Parameter) → i.Value → Setting
  | .digest, value => .digest value
  | .keyLength, n => .keyLength n
  | .count .iterations, n => .iterations n
  | .count .blockSize, n => .blockSize n
  | .count .parallelization, n => .parallelization n

/-- The digest that a setting gives, if it gives one. -/
def Setting.digest? : Setting → Option Digest
  | .digest value => some value
  | .digestName name => digestNamed? name
  | .properties p => p.hashFunction.bind digestNamed?
  | _ => none

/-- The length of a key that a setting gives, if it gives one. -/
def Setting.keyLength? : Setting → Option Nat
  | .keyLength n => some n
  | .properties p => p.derivedKeyLength.map UInt32.toNat
  | _ => none

/-- The count that a setting gives, if it gives it. -/
def Setting.count? (count : Count) : Setting → Option UInt32
  | .iterations n => if count = .iterations then some n else none
  | .blockSize n => if count = .blockSize then some n else none
  | .parallelization n => if count = .parallelization then some n else none
  | .properties p => p.count? count
  | _ => none

/-- The value that a setting gives a parameter, if it gives it one. -/
def Setting.value? (setting : Setting) : (i : Parameter) → Option i.Value
  | .digest => setting.digest?
  | .keyLength => setting.keyLength?
  | .count count => setting.count? count

/-- Whether a setting gives a parameter a value. -/
def Setting.gives (setting : Setting) (i : Parameter) : Bool := (setting.value? i).isSome

/-- The name of a digest in a setting, if there is one. -/
def Setting.digestName? : Setting → Option String
  | .digestName name => some name
  | .properties p => p.hashFunction
  | _ => none

/-- A setting in which no name of a digest is rejected. -/
def Setting.Accepted (setting : Setting) : Prop :=
  ∀ name ∈ setting.digestName?, ∃ digest, Digest.ofName name = .ok digest

/-- Settings in which no name of a digest is rejected. -/
def AllAccepted (settings : List Setting) : Prop := ∀ setting ∈ settings, setting.Accepted

theorem Setting.accepted_of_none {setting : Setting} (h : setting.digestName? = none) :
    setting.Accepted := by
  rw [Accepted, h]
  simp

/-- The count that a draft has, if it was given it. -/
def Draft.count? (draft : Draft) : Count → Option UInt32
  | .iterations => draft.iterations
  | .blockSize => draft.blockSize
  | .parallelization => draft.parallelization

/-- The value that a draft has for a parameter, if it was given one. -/
def Draft.value? (draft : Draft) : (i : Parameter) → Option i.Value
  | .digest => draft.digest
  | .keyLength => draft.keyLength
  | .count count => draft.count? count

/-- The count that a spec has, if its function uses it. -/
def Spec.count? (spec : Spec) : Count → Option Positive
  | .iterations => spec.iterations
  | .blockSize => spec.blockSize
  | .parallelization => spec.parallelization

/-- The value that a spec has for a parameter, if its function uses it. -/
def Spec.value? (spec : Spec) : (i : Parameter) → Option i.Value
  | .digest => some spec.digest
  | .keyLength => some spec.keyLength.val
  | .count count => (spec.count? count).map Properties.wordOf

/-! ## What one setting does -/

namespace Draft

variable {draft draft' : Draft} {setting : Setting}

theorem setDigestName_eq_ok_iff {name : String} : draft.setDigestName name = .ok draft' ↔
    ∃ digest, Digest.ofName name = .ok digest ∧ draft' = { draft with digest := some digest } := by
  rw [setDigestName, bind_eq_ok_iff]
  constructor
  · rintro ⟨digest, hdigest, h⟩
    exact ⟨digest, hdigest, (Except.ok.inj h).symm⟩
  · rintro ⟨digest, hdigest, rfl⟩
    exact ⟨digest, hdigest, rfl⟩

theorem digestNamed?_of_ofName {name : String} {digest : Digest}
    (h : Digest.ofName name = .ok digest) : digestNamed? name = some digest := by
  rw [digestNamed?, h]
  rfl

/-- The digest that properties name is set before anything else. -/
theorem setProperties_eq (p : Properties) :
    draft.setProperties p =
      (match p.hashFunction with
        | some name => draft.setDigestName name
        | none => .ok draft) >>= fun draft => .ok { draft with
          keyLength := (p.derivedKeyLength.map UInt32.toNat).or draft.keyLength
          iterations := p.iterations.or draft.iterations
          blockSize := p.blockSize.or draft.blockSize
          parallelization := p.parallelization.or draft.parallelization } := by
  rw [setProperties]
  cases p.hashFunction <;> rfl

/-- What properties leave as it was is what they do not give. -/
theorem value?_of_setProperties {p : Properties} (h : draft.setProperties p = .ok draft') :
    draft'.function = draft.function ∧
      ∀ i, draft'.value? i = ((Setting.properties p).value? i).or (draft.value? i) := by
  rw [setProperties_eq] at h
  obtain ⟨next, hnext, h⟩ := bind_eq_ok_iff.mp h
  obtain rfl := Except.ok.inj h
  obtain rfl : next = { draft with
      digest := (p.hashFunction.bind digestNamed?).or draft.digest } := by
    cases hname : p.hashFunction with
    | none =>
      rw [hname] at hnext
      exact (Except.ok.inj hnext).symm
    | some name =>
      rw [hname] at hnext
      obtain ⟨digest, hdigest, rfl⟩ := setDigestName_eq_ok_iff.mp hnext
      rw [Option.bind_some, digestNamed?_of_ofName hdigest, Option.some_or]
  refine ⟨rfl, fun i => ?_⟩
  cases i with
  | count count => cases count <;> rfl
  | _ => rfl

/-- **What a setting does**: the parameters it gives a value have that value, the others the one
they had. -/
theorem value?_of_apply (i : Parameter) (h : draft.apply setting = .ok draft') :
    draft'.value? i = (setting.value? i).or (draft.value? i) := by
  cases setting with
  | properties p => exact (value?_of_setProperties h).2 i
  | digestName name =>
    obtain ⟨digest, hdigest, rfl⟩ := setDigestName_eq_ok_iff.mp h
    cases i with
    | digest =>
      have hnamed := digestNamed?_of_ofName hdigest
      simp only [Setting.value?, Setting.digest?, value?, hnamed]
      rfl
    | keyLength => rfl
    | count count => cases count <;> rfl
  | _ =>
    cases h
    cases i with
    | count count => cases count <;> rfl
    | _ => rfl

theorem function_of_apply (h : draft.apply setting = .ok draft') :
    draft'.function = draft.function := by
  cases setting with
  | properties p => exact (value?_of_setProperties h).1
  | digestName name =>
    obtain ⟨digest, -, rfl⟩ := setDigestName_eq_ok_iff.mp h
    rfl
  | _ =>
    cases h
    rfl

/-- **A setting is accepted** unless it names a digest that there is not. -/
theorem exists_apply_iff : (∃ draft', draft.apply setting = .ok draft') ↔ setting.Accepted := by
  have hname (draft : Draft) (name : String) : (∃ draft', draft.setDigestName name = .ok draft') ↔
      ∃ digest, Digest.ofName name = .ok digest := by
    simp only [setDigestName_eq_ok_iff]
    exact ⟨fun ⟨_, digest, h, _⟩ => ⟨digest, h⟩, fun ⟨digest, h⟩ => ⟨_, digest, h, rfl⟩⟩
  cases setting with
  | digestName name =>
    rw [apply, hname, Setting.Accepted]
    simp [Setting.digestName?]
  | properties p =>
    have hok (draft : Draft) : ∃ draft', (.ok draft : Result Draft) = .ok draft' := ⟨draft, rfl⟩
    rw [apply, setProperties_eq, exists_bind_eq_ok_iff, Setting.Accepted, Setting.digestName?]
    simp only [hok, and_true]
    cases p.hashFunction with
    | none => exact iff_of_true ⟨draft, rfl⟩ (by simp)
    | some name =>
      rw [hname]
      simp
  | _ => exact iff_of_true ⟨_, rfl⟩ (Setting.accepted_of_none rfl)

/-! ## What comes of a draft -/

/-- The value of a parameter that counts, be it given or what the function falls back on. -/
def settled? (draft : Draft) (i : Parameter) : Option i.Value :=
  (draft.value? i).or (draft.function.fallback? i)

theorem settled?_digest (draft : Draft) : draft.settled? .digest =
    some (draft.digest.getD draft.function.defaultDigest) :=
  Option.or_some

theorem settled?_keyLength (draft : Draft) : draft.settled? .keyLength =
    some (draft.keyLength.getD draft.function.defaultKeyLength) :=
  Option.or_some

theorem settled?_iterations (draft : Draft) :
    draft.settled? (.count .iterations) = draft.iterations :=
  Option.or_none

theorem settled?_blockSize (draft : Draft) :
    draft.settled? (.count .blockSize) = some (draft.blockSize.getD defaultBlockSize) :=
  Option.or_some

theorem settled?_parallelization (draft : Draft) : draft.settled? (.count .parallelization) =
    some (draft.parallelization.getD defaultParallelization) :=
  Option.or_some

/-- **What comes of a draft depends on the parameters that count**, and only on those that its
function uses. -/
theorem build_congr (hfunction : draft.function = draft'.function)
    (h : ∀ i ∈ draft.function.parameters, draft.settled? i = draft'.settled? i) :
    draft.build = draft'.build := by
  have hdigest := h .digest (by simp [Function.parameters])
  rw [settled?_digest, settled?_digest] at hdigest
  have hlength := h .keyLength (by simp [Function.parameters])
  rw [settled?_keyLength, settled?_keyLength] at hlength
  rw [build, build, Option.some.inj hdigest, Option.some.inj hlength, ← hfunction]
  cases hf : draft.function with
  | legacy => rfl
  | iteratedDigest =>
    have hiterations := h (.count .iterations) (by simp [Function.parameters, Function.counts, hf])
    rw [settled?_iterations, settled?_iterations] at hiterations
    simp only [iterationsDue, hiterations]
  | memoryHard =>
    have hiterations := h (.count .iterations) (by simp [Function.parameters, Function.counts, hf])
    rw [settled?_iterations, settled?_iterations] at hiterations
    have hblock := h (.count .blockSize) (by simp [Function.parameters, Function.counts, hf])
    rw [settled?_blockSize, settled?_blockSize] at hblock
    have hlanes := h (.count .parallelization) (by simp [Function.parameters, Function.counts, hf])
    rw [settled?_parallelization, settled?_parallelization] at hlanes
    simp only [iterationsDue, hiterations, Option.some.inj hblock, Option.some.inj hlanes]

end Draft

namespace Spec

/-- Values for the parameters of derivation functions, some of which may be missing. -/
def Values := (i : Parameter) → Option i.Value

/-- The length of a key. -/
def Values.keyLength? (values : Values) : Option Nat := values .keyLength

/-- A count. -/
def Values.count? (values : Values) (count : Count) : Option UInt32 := values (.count count)

/-- A count that the function uses is missing, which only iterations can be. -/
def Values.Missing (values : Values) (function : Function) : Prop :=
  .iterations ∈ function.counts ∧ values.count? .iterations = none

/-- The length of a key is out of range, or a count that the function uses is zero. -/
def Values.OutOfRange (values : Values) (function : Function) : Prop :=
  (∃ n, values.keyLength? = some n ∧ (n = 0 ∨ 2 ^ 32 - 1 < n)) ∨
    ∃ count ∈ function.counts, values.count? count = some 0

/-- A spec of a function with the values that count. -/
def Has (spec : Spec) (function : Function) (values : Values) : Prop :=
  spec.function = function ∧ ∀ i ∈ function.parameters, spec.value? i = values i

/-- The first count that is zero of those that a function uses. -/
def zeroCount? (function : Function) (values : Values) : Option Count :=
  function.counts.find? fun count => values.count? count = some 0

/-- What comes of values for the parameters of a function, the faults in the order in which they are
told. -/
inductive Outcome (function : Function) (values : Values) : Result Spec → Prop where
  | missing (h : Count.iterations ∈ function.counts) (h' : values.count? .iterations = none) :
    Outcome function values (.error (.missingParameter "iterations"))
  | zeroLength (h : ∀ count ∈ function.counts, values.count? count ≠ none)
    (hlength : values.keyLength? = some 0) :
    Outcome function values (.error (.invalidInput .zeroLength))
  | lengthTooLarge {n : Nat} (h : ∀ count ∈ function.counts, values.count? count ≠ none)
    (hlength : values.keyLength? = some n) (hn : 2 ^ 32 ≤ n) :
    Outcome function values (.error (.invalidInput (.lengthTooLarge n)))
  | zeroCount {n : Nat} {count : Count}
    (h : ∀ count ∈ function.counts, values.count? count ≠ none)
    (hlength : values.keyLength? = some n) (hn : 1 ≤ n ∧ n < 2 ^ 32)
    (hcount : zeroCount? function values = some count) :
    Outcome function values (.error (.invalidInput (.zeroCount count)))
  | built {spec : Spec} (h : spec.Has function values) : Outcome function values (.ok spec)

variable {function : Function} {values : Values}

/-- A length is checked before anything that comes of it. -/
theorem outcome_ofLength {n : Nat} {rest : Positive → Result Spec}
    (h : ∀ count ∈ function.counts, values.count? count ≠ none)
    (hlength : values.keyLength? = some n)
    (hrest : ∀ length : Positive, length.val = n → Outcome function values (rest length)) :
    Outcome function values (Positive.ofLength n >>= rest) := by
  rw [Positive.ofLength]
  split
  · next hzero => exact .zeroLength h (hzero ▸ hlength)
  split
  · exact hrest _ rfl
  · next hn => exact .lengthTooLarge h hlength (Nat.le_of_not_lt hn)

/-- A count is checked before anything that comes of it. -/
theorem outcome_ofCount {n : Nat} {count : Count} {m : UInt32} {rest : Positive → Result Spec}
    (h : ∀ count ∈ function.counts, values.count? count ≠ none)
    (hlength : values.keyLength? = some n) (hn : 1 ≤ n ∧ n < 2 ^ 32)
    (hcount : m = 0 → zeroCount? function values = some count)
    (hrest : ∀ p : Positive, Properties.wordOf p = m → m ≠ 0 → Outcome function values (rest p)) :
    Outcome function values (Positive.ofCount count m >>= rest) := by
  rw [Positive.ofCount]
  split
  · next hzero => exact .zeroCount h hlength hn (hcount (UInt32.toNat_inj.mp hzero))
  · next hne =>
    refine hrest _ ?_ fun hzero => hne (hzero ▸ rfl)
    exact UInt32.ofNat_toNat

end Spec

namespace Draft

variable (draft : Draft)

/-- That iterations are missing is told before anything else. -/
theorem outcome_iterationsDue {function : Function} {values : Spec.Values}
    {rest : UInt32 → Result Spec} (hmem : .iterations ∈ function.counts)
    (hvalue : values.count? .iterations = draft.iterations)
    (hrest : ∀ n, values.count? .iterations = some n → Spec.Outcome function values (rest n)) :
    Spec.Outcome function values (draft.iterationsDue >>= rest) := by
  rw [iterationsDue]
  cases hn : draft.iterations with
  | none => exact .missing hmem (hvalue.trans hn)
  | some n => exact hrest n (hvalue.trans hn)

/-- **What comes of a draft.** -/
theorem outcome_build : Spec.Outcome draft.function draft.settled? draft.build := by
  have hdigest := draft.settled?_digest
  have hlength : Spec.Values.keyLength? draft.settled? = _ := draft.settled?_keyLength
  have hiterations : Spec.Values.count? draft.settled? .iterations = _ := draft.settled?_iterations
  have hblock : Spec.Values.count? draft.settled? .blockSize = _ := draft.settled?_blockSize
  have hlanes : Spec.Values.count? draft.settled? .parallelization = _ :=
    draft.settled?_parallelization
  rw [build]
  cases hf : draft.function with
  | legacy =>
    rw [hf] at hdigest hlength
    refine Spec.outcome_ofLength (List.forall_mem_nil _) hlength fun length hval => ?_
    refine .built ⟨rfl, Function.forall_parameters_iff.mpr ⟨hdigest.symm, ?_, ?_⟩⟩
    · exact (congrArg some hval).trans hlength.symm
    · exact List.forall_mem_nil _
  | iteratedDigest =>
    rw [hf] at hdigest hlength
    refine draft.outcome_iterationsDue (by simp [Function.counts]) hiterations fun n hn => ?_
    have hgiven : ∀ count ∈ Function.iteratedDigest.counts,
        Spec.Values.count? draft.settled? count ≠ none := by
      simp [Function.counts, hn]
    refine Spec.outcome_ofLength hgiven hlength fun length hval => ?_
    have hrange : 1 ≤ length.val ∧ length.val < 2 ^ 32 := ⟨length.pos, length.lt⟩
    refine Spec.outcome_ofCount hgiven hlength (hval ▸ hrange) ?_ fun iterations hit _ => ?_
    · rintro rfl
      simp [Spec.zeroCount?, Function.counts, hn]
    refine .built ⟨rfl, Function.forall_parameters_iff.mpr ⟨hdigest.symm, ?_, ?_⟩⟩
    · exact (congrArg some hval).trans hlength.symm
    · exact List.forall_mem_singleton.mpr ((congrArg some hit).trans hn.symm)
  | memoryHard =>
    rw [hf] at hdigest hlength
    refine draft.outcome_iterationsDue (by simp [Function.counts]) hiterations fun n hn => ?_
    have hgiven : ∀ count ∈ Function.memoryHard.counts,
        Spec.Values.count? draft.settled? count ≠ none := by
      simp [Function.counts, hn, hblock, hlanes]
    refine Spec.outcome_ofLength hgiven hlength fun length hval => ?_
    have hrange : 1 ≤ length.val ∧ length.val < 2 ^ 32 := ⟨length.pos, length.lt⟩
    refine Spec.outcome_ofCount hgiven hlength (hval ▸ hrange) ?_ fun iterations hit hne => ?_
    · rintro rfl
      simp [Spec.zeroCount?, Function.counts, hn]
    refine Spec.outcome_ofCount hgiven hlength (hval ▸ hrange) ?_ fun blockSize hbl hne' => ?_
    · intro hzero
      rw [hzero] at hblock
      simp [Spec.zeroCount?, Function.counts, hn, hblock, hne]
    refine Spec.outcome_ofCount hgiven hlength (hval ▸ hrange) ?_ fun lanes hla _ => ?_
    · intro hzero
      rw [hzero] at hlanes
      simp [Spec.zeroCount?, Function.counts, hn, hblock, hlanes, hne, hne']
    refine .built ⟨rfl, Function.forall_parameters_iff.mpr ⟨hdigest.symm, ?_, ?_⟩⟩
    · exact (congrArg some hval).trans hlength.symm
    · refine List.forall_mem_cons.mpr ⟨(congrArg some hit).trans hn.symm,
        List.forall_mem_cons.mpr ⟨(congrArg some hbl).trans hblock.symm,
          List.forall_mem_singleton.mpr ((congrArg some hla).trans hlanes.symm)⟩⟩

end Draft

namespace Spec

/-! ## What is told apart -/

theorem exists_count?_of_mem {spec : Spec} {count : Count} (h : count ∈ spec.function.counts) :
    ∃ n, spec.count? count = some n := by
  cases spec <;> cases count <;> first | exact ⟨_, rfl⟩ | simp [Spec.function, Function.counts] at h

theorem wordOf_injective {n m : Positive} (h : Properties.wordOf n = Properties.wordOf m) :
    n = m := by
  have hval := congrArg UInt32.toNat h
  rw [toNat_wordOf, toNat_wordOf] at hval
  exact Positive.eq_of_val hval

theorem wordOf_ne_zero (n : Positive) : Properties.wordOf n ≠ 0 := by
  intro h
  have hval := toNat_wordOf n
  rw [h] at hval
  exact absurd hval.symm (Nat.pos_iff_ne_zero.mp n.pos)

section

variable {function : Function} {values : Values} {spec spec' : Spec} {outcome : Result Spec}

theorem Has.keyLength?_eq (h : spec.Has function values) :
    values.keyLength? = some spec.keyLength.val :=
  (Function.forall_parameters_iff.mp h.2).2.1.symm

theorem Has.exists_count? (h : spec.Has function values) {count : Count}
    (hmem : count ∈ function.counts) :
    ∃ n, spec.count? count = some n ∧ values.count? count = some (Properties.wordOf n) := by
  obtain ⟨rfl, h⟩ := h
  obtain ⟨n, hn⟩ := exists_count?_of_mem hmem
  have hvalue : (spec.count? count).map Properties.wordOf = values.count? count :=
    (Function.forall_parameters_iff.mp h).2.2 count hmem
  rw [hn] at hvalue
  exact ⟨n, hn, hvalue.symm⟩

theorem Has.not_missing (h : spec.Has function values) : ¬values.Missing function := by
  rintro ⟨hmem, hnone⟩
  obtain ⟨n, -, hn⟩ := h.exists_count? hmem
  cases hnone.symm.trans hn

theorem Has.not_outOfRange (h : spec.Has function values) : ¬values.OutOfRange function := by
  rintro (⟨n, hlength, hn⟩ | ⟨count, hmem, hzero⟩)
  · obtain rfl := Option.some.inj (h.keyLength?_eq.symm.trans hlength)
    have hpos := spec.keyLength.pos
    have hlt : spec.keyLength.val < 2 ^ 32 := spec.keyLength.lt
    omega
  · obtain ⟨n, -, hn⟩ := h.exists_count? hmem
    exact wordOf_ne_zero n (Option.some.inj (hn.symm.trans hzero))

/-- Specs with the same function, digest, length and counts are the same. -/
theorem eq_of_counts (hfunction : spec.function = spec'.function)
    (hdigest : spec.digest = spec'.digest) (hlength : spec.keyLength = spec'.keyLength)
    (hcount : ∀ count ∈ spec.function.counts, spec.count? count = spec'.count? count) :
    spec = spec' := by
  cases spec with
  | legacy =>
    cases spec' with
    | legacy => exact congrArg₂ legacy hdigest hlength
    | _ => cases hfunction
  | iteratedDigest digest length n =>
    cases spec' with
    | iteratedDigest digest' length' n' =>
      obtain rfl : digest = digest' := hdigest
      obtain rfl : length = length' := hlength
      obtain rfl : n = n' :=
        Option.some.inj (hcount .iterations (by simp [function, Function.counts]))
      rfl
    | _ => cases hfunction
  | memoryHard digest length n blockSize lanes =>
    cases spec' with
    | memoryHard digest' length' n' blockSize' lanes' =>
      obtain rfl : digest = digest' := hdigest
      obtain rfl : length = length' := hlength
      have hmem (count : Count) : count ∈ Function.memoryHard.counts := by
        cases count <;> simp [Function.counts]
      obtain rfl : n = n' := Option.some.inj (hcount .iterations (hmem _))
      obtain rfl : blockSize = blockSize' := Option.some.inj (hcount .blockSize (hmem _))
      obtain rfl : lanes = lanes' := Option.some.inj (hcount .parallelization (hmem _))
      rfl
    | _ => cases hfunction

/-- The values of a spec say all there is to say about it. -/
theorem Has.unique (h : spec.Has function values) (h' : spec'.Has function values) :
    spec = spec' := by
  have hdigest : spec.digest = spec'.digest := Option.some.inj <|
    (Function.forall_parameters_iff.mp h.2).1.trans (Function.forall_parameters_iff.mp h'.2).1.symm
  have hlength : spec.keyLength = spec'.keyLength :=
    Positive.eq_of_val (Option.some.inj (h.keyLength?_eq.symm.trans h'.keyLength?_eq))
  refine eq_of_counts (h.1.trans h'.1.symm) hdigest hlength fun count hmem => ?_
  obtain ⟨n, hn, hvalue⟩ := h.exists_count? (h.1 ▸ hmem)
  obtain ⟨n', hn', hvalue'⟩ := h'.exists_count? (h.1 ▸ hmem)
  rw [hn, hn', wordOf_injective (Option.some.inj (hvalue.symm.trans hvalue'))]

namespace Outcome

theorem missing_iff (h : Outcome function values outcome) :
    outcome = .error (.missingParameter "iterations") ↔ values.Missing function := by
  constructor
  · intro houtcome
    cases h with
    | missing hmem hnone => exact ⟨hmem, hnone⟩
    | _ => cases houtcome
  · rintro ⟨hmem, hnone⟩
    cases h with
    | missing => rfl
    | zeroLength hgiven => exact absurd hnone (hgiven _ hmem)
    | lengthTooLarge hgiven => exact absurd hnone (hgiven _ hmem)
    | zeroCount hgiven => exact absurd hnone (hgiven _ hmem)
    | built hspec => exact absurd ⟨hmem, hnone⟩ hspec.not_missing

theorem refused_iff (h : Outcome function values outcome) :
    (∃ fault, outcome = .error (.invalidInput fault)) ↔
      ¬values.Missing function ∧ values.OutOfRange function := by
  constructor
  · rintro ⟨fault, houtcome⟩
    cases h with
    | zeroLength hgiven hlength =>
      exact ⟨fun hmissing => hgiven _ hmissing.1 hmissing.2, .inl ⟨0, hlength, .inl rfl⟩⟩
    | lengthTooLarge hgiven hlength hn =>
      exact ⟨fun hmissing => hgiven _ hmissing.1 hmissing.2,
        .inl ⟨_, hlength, .inr (Nat.lt_of_lt_of_le (by decide) hn)⟩⟩
    | zeroCount hgiven _ _ hcount =>
      rw [zeroCount?] at hcount
      have hzero := List.find?_some hcount
      exact ⟨fun hmissing => hgiven _ hmissing.1 hmissing.2,
        .inr ⟨_, List.mem_of_find?_eq_some hcount, of_decide_eq_true hzero⟩⟩
    | missing => cases houtcome
    | built => cases houtcome
  · rintro ⟨hgiven, hrange⟩
    cases h with
    | missing hmem hnone => exact absurd ⟨hmem, hnone⟩ hgiven
    | built hspec => exact absurd hrange hspec.not_outOfRange
    | _ => exact ⟨_, rfl⟩

theorem built_iff (h : Outcome function values outcome) :
    outcome = .ok spec ↔ spec.Has function values := by
  constructor
  · intro houtcome
    cases h with
    | built hspec => exact Except.ok.inj houtcome ▸ hspec
    | _ => cases houtcome
  · intro hspec
    have hnot : ¬∃ fault, outcome = .error (.invalidInput fault) := fun hrefused =>
      hspec.not_outOfRange (h.refused_iff.mp hrefused).2
    cases h with
    | missing hmem hnone => exact absurd ⟨hmem, hnone⟩ hspec.not_missing
    | built hspec' => exact congrArg Except.ok (hspec'.unique hspec)
    | _ => exact absurd ⟨_, rfl⟩ hnot

theorem exists_iff (h : Outcome function values outcome) :
    (∃ spec, outcome = .ok spec) ↔
      ¬values.Missing function ∧ ¬values.OutOfRange function := by
  constructor
  · rintro ⟨spec, houtcome⟩
    have hspec := h.built_iff.mp houtcome
    exact ⟨hspec.not_missing, hspec.not_outOfRange⟩
  · rintro ⟨hgiven, hrange⟩
    have hnot : ¬∃ fault, outcome = .error (.invalidInput fault) := fun hrefused =>
      hrange (h.refused_iff.mp hrefused).2
    cases h with
    | missing hmem hnone => exact absurd ⟨hmem, hnone⟩ hgiven
    | built => exact ⟨_, rfl⟩
    | _ => exact absurd ⟨_, rfl⟩ hnot

end Outcome

end

end Spec

end Strongbox.Derivation
