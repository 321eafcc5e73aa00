import Strongbox.Proofs.Derivation.Draft
import Strongbox.Proofs.Settings

/-!
# Drafts are what they were last given

A draft of a spec is set up by settings in a row. What comes of it depends on the function and on
the value that each parameter was last given, and only of the parameters that the function uses: not
on the order of the settings, on values that were given and taken back, or on parameters that do not
count.

## Main definitions

* `Spec.ofSettings`: the spec of settings in a row
* `Function.settled?`: the last value of a parameter, or what the function falls back on
* `Properties.settings`: properties as settings

## Main results

* `Spec.outcome_ofSettings`: what comes of settings in a row
* `Spec.ofSettings_of_order`, `Spec.ofSettings_overwritten`, `Spec.ofSettings_unused`,
  `Spec.ofSettings_fallback`, `Spec.ofSettings_properties`: what does not matter
* `Spec.last_values_decide`: nothing but the last values counts
-/

namespace Strongbox.Derivation

/-! ## Settings in a row -/

/-- The values that settings in a row leave behind: the last one of each parameter, or what the
function falls back on. -/
def Function.settled? (function : Function) (settings : List Setting) : Spec.Values := fun i =>
  (lastGiven (·.value? i) settings).or (function.fallback? i)

/-- The spec of settings in a row. -/
def Spec.ofSettings (function : Function) (settings : List Setting) : Result Spec := do
  (← settings.foldlM Draft.apply (Draft.ofFunction function)).build

/-- The settings that give parameters, one after the other, what properties give them. -/
def Properties.settings (p : Properties) : List Setting :=
  (p.hashFunction.map .digestName).toList ++
    (p.derivedKeyLength.map fun n => .keyLength n.toNat).toList ++
    (p.iterations.map .iterations).toList ++ (p.blockSize.map .blockSize).toList ++
    (p.parallelization.map .parallelization).toList

section

variable {function : Function} {settings settings' : List Setting}

theorem Draft.exists_of_accepted (function : Function) (h : AllAccepted settings) :
    ∃ draft, settings.foldlM Draft.apply (Draft.ofFunction function) = .ok draft ∧
      draft.function = function ∧ draft.settled? = function.settled? settings := by
  have hstep (draft : Draft) (setting : Setting) :
      (∃ draft', draft.apply setting = .ok draft') ↔ setting.Accepted := Draft.exists_apply_iff
  obtain ⟨draft, hdraft⟩ := (exists_foldlM_iff hstep settings (Draft.ofFunction function)).mpr h
  have hfunction : draft.function = function :=
    eq_of_foldlM Draft.function (fun _ _ _ => function_of_apply) hdraft
  refine ⟨draft, hdraft, hfunction, ?_⟩
  funext i
  have hvalue := get_of_foldlM (·.value? i) (fun _ _ _ => value?_of_apply i) hdraft
  have hnone : (Draft.ofFunction function).value? i = none := by
    cases i with
    | count count => cases count <;> rfl
    | _ => rfl
  rw [hnone, Option.or_none] at hvalue
  rw [Draft.settled?, hvalue, hfunction, Function.settled?]

namespace Spec

/-- **What comes of settings in a row.** -/
theorem outcome_ofSettings (h : AllAccepted settings) :
    Outcome function (function.settled? settings) (ofSettings function settings) := by
  obtain ⟨draft, hdraft, rfl, hsettled⟩ := Draft.exists_of_accepted function h
  rw [ofSettings, hdraft, ← hsettled]
  exact draft.outcome_build

/-- Settings that leave the same values behind make the same spec, or fail alike. -/
theorem ofSettings_congr (h : AllAccepted settings) (h' : AllAccepted settings')
    (heq : ∀ i ∈ function.parameters,
      function.settled? settings i = function.settled? settings' i) :
    ofSettings function settings = ofSettings function settings' := by
  obtain ⟨draft, hdraft, rfl, hsettled⟩ := Draft.exists_of_accepted function h
  obtain ⟨draft', hdraft', hfunction, hsettled'⟩ :=
    Draft.exists_of_accepted draft.function h'
  rw [ofSettings, ofSettings, hdraft, hdraft']
  refine Draft.build_congr hfunction.symm fun i hi => ?_
  rw [hsettled, hsettled', heq i hi]

end Spec

theorem Setting.value?_giving (i : Parameter) (value : i.Value) :
    (giving i value).value? i = some value := by
  cases i with
  | count count => cases count <;> rfl
  | _ => rfl

theorem Setting.value?_giving_of_ne {i j : Parameter} (value : i.Value) (h : j ≠ i) :
    (giving i value).value? j = none := by
  cases i with
  | count count =>
    cases j with
    | count count' => cases count <;> cases count' <;> first | rfl | exact absurd rfl h
    | _ => cases count <;> rfl
  | _ =>
    cases j with
    | count _ => rfl
    | _ => first | rfl | exact absurd rfl h

theorem Setting.accepted_giving (i : Parameter) (value : i.Value) : (giving i value).Accepted := by
  cases i with
  | count count => cases count <;> exact accepted_of_none rfl
  | _ => exact accepted_of_none rfl

theorem Setting.value?_eq_none_iff {setting : Setting} {i : Parameter} :
    setting.value? i = none ↔ setting.gives i = false := by
  rw [gives, Option.isSome_eq_false_iff, Option.isNone_iff_eq_none]

theorem Setting.value?_digestName (name : String) :
    (Setting.digestName name).value? .digest = digestNamed? name :=
  rfl

theorem Setting.value?_properties_digest (p : Properties) :
    (Setting.properties p).value? .digest = p.hashFunction.bind digestNamed? :=
  rfl

theorem Setting.bind_value?_eq_none {β : Type} {i : Parameter} (set : β → Setting)
    (h : ∀ b, (set b).value? i = none) (value : Option β) :
    (value.map set).bind (·.value? i) = none := by
  cases value with
  | none => rfl
  | some b => exact h b

/-- What properties give is what their settings give, one after the other. -/
theorem Properties.lastGiven_settings (p : Properties) (i : Parameter) :
    lastGiven (·.value? i) p.settings = (Setting.properties p).value? i := by
  obtain ⟨function, hash, length, iterations, blockSize, lanes⟩ := p
  simp only [settings, lastGiven_append, lastGiven_toList]
  have hnone {β : Type} (set : β → Setting) (h : ∀ b, (set b).value? i = none) :=
    Setting.bind_value?_eq_none set h
  cases i with
  | digest =>
    rw [hnone .parallelization fun _ => rfl, hnone .blockSize fun _ => rfl,
      hnone .iterations fun _ => rfl, hnone (fun n : UInt32 => .keyLength n.toNat) fun _ => rfl]
    simp only [Option.none_or, Option.bind_map, Function.comp_def, Setting.value?_digestName,
      Setting.value?_properties_digest]
    rfl
  | keyLength =>
    rw [hnone .parallelization fun _ => rfl, hnone .blockSize fun _ => rfl,
      hnone .iterations fun _ => rfl, hnone .digestName fun _ => rfl]
    cases length <;> rfl
  | count count =>
    rw [hnone .digestName fun _ => rfl, hnone (fun n : UInt32 => .keyLength n.toNat) fun _ => rfl]
    cases count with
    | iterations =>
      rw [hnone .parallelization fun _ => rfl, hnone .blockSize fun _ => rfl]
      cases iterations <;> rfl
    | blockSize =>
      rw [hnone .parallelization fun _ => rfl, hnone .iterations fun _ => rfl]
      cases blockSize <;> rfl
    | parallelization =>
      rw [hnone .blockSize fun _ => rfl, hnone .iterations fun _ => rfl]
      cases lanes <;> rfl

theorem Properties.accepted_settings {p : Properties} (h : (Setting.properties p).Accepted) :
    AllAccepted p.settings := by
  simp only [AllAccepted, settings, List.mem_append, Option.mem_toList, Option.map_eq_some_iff]
  rintro setting ((((⟨name, hname, rfl⟩ | ⟨_, -, rfl⟩) | ⟨_, -, rfl⟩) | ⟨_, -, rfl⟩) | ⟨_, -, rfl⟩)
  · rintro _ ⟨⟩
    exact h name hname
  all_goals exact Setting.accepted_of_none rfl

namespace Spec

variable {before after : List Setting} {dropped : Setting}

/-- Settings in whatever order: those that give a parameter come in the same one. -/
theorem ofSettings_of_order (h : AllAccepted settings) (h' : AllAccepted settings')
    (horder : ∀ i, settings.filter (·.gives i) = settings'.filter (·.gives i)) :
    ofSettings function settings = ofSettings function settings' := by
  refine ofSettings_congr h h' fun i _ => ?_
  rw [Function.settled?, Function.settled?, ← lastGiven_filter, ← lastGiven_filter _ settings']
  exact congrArg (fun given => (lastGiven (·.value? i) given).or _) (horder i)

/-- Settings are still accepted when one is left out. -/
theorem accepted_without (h : AllAccepted (before ++ dropped :: after)) :
    AllAccepted (before ++ after) := fun setting hmem =>
  h setting <| (List.mem_append.mp hmem).elim (List.mem_append_left _) fun hmem =>
    List.mem_append_right _ (List.mem_cons_of_mem _ hmem)

/-- A setting may as well be left out if all that it gives is given again. -/
theorem ofSettings_overwritten (h : AllAccepted (before ++ dropped :: after))
    (hagain : ∀ i, dropped.gives i → ∃ setting ∈ after, setting.gives i) :
    ofSettings function (before ++ dropped :: after) = ofSettings function (before ++ after) := by
  refine ofSettings_congr h (accepted_without h) fun i _ => ?_
  rw [Function.settled?, Function.settled?, lastGiven_append, lastGiven_append, lastGiven_cons]
  cases hdropped : dropped.gives i with
  | false => rw [Setting.value?_eq_none_iff.mpr hdropped, Option.or_none]
  | true =>
    obtain ⟨setting, hmem, hgives⟩ := hagain i hdropped
    cases hlast : lastGiven (·.value? i) after with
    | none =>
      have hnone := Setting.value?_eq_none_iff.mp (lastGiven_eq_none_iff _ |>.mp hlast setting hmem)
      rw [hnone] at hgives
      cases hgives
    | some value => rw [Option.some_or]

/-- A setting may as well be left out if all that it gives is for parameters that do not count. -/
theorem ofSettings_unused (h : AllAccepted (before ++ dropped :: after))
    (hunused : ∀ i ∈ function.parameters, ¬dropped.gives i) :
    ofSettings function (before ++ dropped :: after) = ofSettings function (before ++ after) := by
  refine ofSettings_congr h (accepted_without h) fun i hi => ?_
  have hnone := Setting.value?_eq_none_iff.mpr (Bool.eq_false_iff.mpr (hunused i hi))
  rw [Function.settled?, Function.settled?, lastGiven_append, lastGiven_append, lastGiven_cons,
    hnone, Option.or_none]

/-- What the function falls back on may as well be left out. -/
theorem ofSettings_fallback {i : Parameter} {value : i.Value}
    (h : AllAccepted (before ++ after))
    (hvalue : function.fallback? i = some value)
    (hnone : ∀ setting ∈ before ++ after, ¬setting.gives i) :
    ofSettings function (before ++ .giving i value :: after) =
      ofSettings function (before ++ after) := by
  have hall : AllAccepted (before ++ .giving i value :: after) := by
    intro setting hmem
    rcases List.mem_append.mp hmem with hbefore | hrest
    · exact h setting (List.mem_append_left _ hbefore)
    rcases List.mem_cons.mp hrest with rfl | hafter
    · exact Setting.accepted_giving i value
    · exact h setting (List.mem_append_right _ hafter)
  refine ofSettings_congr hall h fun j _ => ?_
  rw [Function.settled?, Function.settled?, lastGiven_append, lastGiven_append, lastGiven_cons]
  by_cases hj : j = i
  · subst hj
    have hlast : lastGiven (·.value? j) (before ++ after) = none :=
      (lastGiven_eq_none_iff _).mpr fun setting hmem =>
        Setting.value?_eq_none_iff.mpr (Bool.eq_false_iff.mpr (hnone setting hmem))
    rw [lastGiven_append, Option.or_eq_none_iff] at hlast
    rw [hlast.1, hlast.2, Setting.value?_giving, hvalue]
    rfl
  · rw [Setting.value?_giving_of_ne value hj, Option.or_none]

/-- Properties may as well be set one after the other. -/
theorem ofSettings_properties {p : Properties}
    (h : AllAccepted (before ++ .properties p :: after)) :
    ofSettings function (before ++ .properties p :: after) =
      ofSettings function (before ++ p.settings ++ after) := by
  have hall : AllAccepted (before ++ p.settings ++ after) := by
    have hp := h (.properties p) (List.mem_append_right _ List.mem_cons_self)
    intro setting hmem
    rcases List.mem_append.mp hmem with hfront | hafter
    · rcases List.mem_append.mp hfront with hbefore | hsettings
      · exact h setting (List.mem_append_left _ hbefore)
      · exact p.accepted_settings hp setting hsettings
    · exact h setting (List.mem_append_right _ (List.mem_cons_of_mem _ hafter))
  refine ofSettings_congr h hall fun i _ => ?_
  rw [Function.settled?, Function.settled?, lastGiven_append, lastGiven_append, lastGiven_append,
    lastGiven_cons, p.lastGiven_settings]
  simp only [Option.or_assoc]

/-! ## The spec of properties -/

/-- The spec of properties is that of a draft of the function they name, in which they are set. -/
theorem ofProperties_of_function {p : Properties} {name : String} (hname : p.function = some name)
    (hfunction : Function.ofName name = .ok function) :
    ofProperties p = ofSettings function [.properties p] := by
  have hdraft : Draft.ofName name = .ok (Draft.ofFunction function) := by
    rw [Draft.ofName, hfunction]
    rfl
  rw [ofProperties, Draft.ofProperties, hname, ofSettings, List.foldlM_cons]
  simp only [hdraft, List.foldlM_nil, bind_pure]
  rfl

theorem ofProperties_of_missing {p : Properties} (h : p.function = none) :
    ofProperties p = .error (.missingParameter "function") := by
  rw [ofProperties, Draft.ofProperties, h]
  rfl

theorem ofProperties_of_unknown {p : Properties} {name : String} (hname : p.function = some name)
    (hunknown : ∀ function, Function.ofName name ≠ .ok function) :
    ofProperties p = .error (.invalidValue "function" name) := by
  have hfault := (Function.ofName_cases name).resolve_left fun ⟨function, h⟩ => hunknown function h
  rw [ofProperties, Draft.ofProperties, hname]
  simp only [Draft.ofName, hfault]
  rfl

/-- A digest that there is not is told before anything that is wrong with lengths and counts. -/
theorem ofProperties_of_unknown_digest {p : Properties} {name digest : String}
    (hname : p.function = some name) (hfunction : Function.ofName name = .ok function)
    (hdigest : p.hashFunction = some digest)
    (hunknown : ∀ value, Digest.ofName digest ≠ .ok value) :
    ofProperties p = .error (.invalidValue "hashFunction" digest) := by
  have hfault := (digest_ofName_cases digest).resolve_left fun ⟨value, h⟩ => hunknown value h
  have hset : (Draft.ofFunction function).setProperties p =
      .error (.invalidValue "hashFunction" digest) := by
    rw [Draft.setProperties_eq, hdigest]
    simp only [Draft.setDigestName, hfault]
    rfl
  rw [ofProperties_of_function hname hfunction, ofSettings, List.foldlM_cons, Draft.apply, hset]
  rfl

/-- **Nothing but the last values counts**, and only those of parameters that the function uses.
Settings that leave the same values behind make the same spec or fail alike. So the order of
settings does not matter where they give different parameters; what is given again may be left out,
and so may what the function falls back on, and whatever is given to parameters that it does not
use; and properties may be set one after the other. It is told that iterations are missing if they
are; then that a length or a count is out of range if one is; and in all other cases the spec has
the values that were left behind. Properties have to name a function and a digest that there are,
besides. -/
theorem last_values_decide :
    (∀ function settings settings', AllAccepted settings → AllAccepted settings' →
        (∀ i ∈ function.parameters,
          function.settled? settings i = function.settled? settings' i) →
        ofSettings function settings = ofSettings function settings') ∧
      (∀ function settings settings', AllAccepted settings → AllAccepted settings' →
        (∀ i, settings.filter (·.gives i) = settings'.filter (·.gives i)) →
        ofSettings function settings = ofSettings function settings') ∧
      (∀ function before dropped after, AllAccepted (before ++ dropped :: after) →
        (∀ i, dropped.gives i → ∃ setting ∈ after, setting.gives i) →
        ofSettings function (before ++ dropped :: after) =
          ofSettings function (before ++ after)) ∧
      (∀ function before p after, AllAccepted (before ++ .properties p :: after) →
        ofSettings function (before ++ .properties p :: after) =
          ofSettings function (before ++ p.settings ++ after)) ∧
      (∀ function before i value after, AllAccepted (before ++ after) →
        function.fallback? i = some value → (∀ setting ∈ before ++ after, ¬setting.gives i) →
        ofSettings function (before ++ .giving i value :: after) =
          ofSettings function (before ++ after)) ∧
      (∀ function before dropped after, AllAccepted (before ++ dropped :: after) →
        (∀ i ∈ function.parameters, ¬dropped.gives i) →
        ofSettings function (before ++ dropped :: after) =
          ofSettings function (before ++ after)) ∧
      (∀ function settings, AllAccepted settings →
        (ofSettings function settings = .error (.missingParameter "iterations") ↔
          (function.settled? settings).Missing function) ∧
        ((∃ fault, ofSettings function settings = .error (.invalidInput fault)) ↔
          ¬(function.settled? settings).Missing function ∧
            (function.settled? settings).OutOfRange function) ∧
        ((∃ spec, ofSettings function settings = .ok spec) ↔
          ¬(function.settled? settings).Missing function ∧
            ¬(function.settled? settings).OutOfRange function) ∧
        ∀ spec, ofSettings function settings = .ok spec ↔
          spec.Has function (function.settled? settings)) ∧
      (∀ p : Properties, p.function = none →
        ofProperties p = .error (.missingParameter "function")) ∧
      (∀ (p : Properties) name, p.function = some name →
        (∀ function, Function.ofName name ≠ .ok function) →
        ofProperties p = .error (.invalidValue "function" name)) ∧
      (∀ (p : Properties) name function digest, p.function = some name →
        Function.ofName name = .ok function → p.hashFunction = some digest →
        (∀ value, Digest.ofName digest ≠ .ok value) →
        ofProperties p = .error (.invalidValue "hashFunction" digest)) ∧
      ∀ (p : Properties) name function, p.function = some name →
        Function.ofName name = .ok function →
        ofProperties p = ofSettings function [.properties p] := by
  refine ⟨fun _ _ _ => ofSettings_congr, fun _ _ _ => ofSettings_of_order,
    fun _ _ _ _ => ofSettings_overwritten, fun _ _ _ _ => ofSettings_properties,
    fun _ _ _ _ _ => ofSettings_fallback, fun _ _ _ _ => ofSettings_unused, ?_,
    fun _ => ofProperties_of_missing, fun _ _ => ofProperties_of_unknown,
    fun _ _ _ _ => ofProperties_of_unknown_digest, fun _ _ _ => ofProperties_of_function⟩
  intro function settings h
  have houtcome : Outcome function _ _ := outcome_ofSettings h
  exact ⟨houtcome.missing_iff, houtcome.refused_iff, houtcome.exists_iff,
    fun spec => houtcome.built_iff⟩

theorem last_values_decide_of_samples :
    ofSettings .memoryHard [.iterations 1024, .blockSize 4, .digest .sha256] =
        ofSettings .memoryHard [.digestName "sha-256", .blockSize 4, .iterations 1024] ∧
      ofSettings .memoryHard [.iterations 1024, .blockSize 4] =
        ofSettings .memoryHard [.blockSize 4, .iterations 1024] ∧
      ofSettings .iteratedDigest [.iterations 0, .keyLength 7, .iterations 5] =
        ofSettings .iteratedDigest [.keyLength 7, .iterations 5] ∧
      ofSettings .memoryHard [.properties { iterations := some 2, blockSize := some 3 }] =
        ofSettings .memoryHard [.iterations 2, .blockSize 3] ∧
      ofSettings .legacy [.keyLength 16] = ofSettings .legacy [] ∧
      ofSettings .legacy [.iterations 0] = ofSettings .legacy [] ∧
      ofSettings .memoryHard [.keyLength 0] = .error (.missingParameter "iterations") ∧
      (∃ fault, ofSettings .iteratedDigest [.iterations 0] = .error (.invalidInput fault)) ∧
      ofSettings .legacy [.keyLength 24] = .ok (.legacy .md5 ⟨24, by decide, by decide⟩) ∧
      ofProperties {} = .error (.missingParameter "function") ∧
      ofProperties { function := some "argon2" } = .error (.invalidValue "function" "argon2") ∧
      ofProperties { function := some "scrypt", hashFunction := some "crc32" } =
        .error (.invalidValue "hashFunction" "crc32") ∧
      ofProperties { function := some "openssl" } =
        ofSettings .legacy [.properties { function := some "openssl" }] := by
  obtain ⟨hcongr, horder, hagain, hproperties, hfallback, hunused, houtcome, hmissing, hunknown,
    hdigest, hfunction⟩ := last_values_decide
  have hunnamed {settings : List Setting} (h : ∀ setting ∈ settings, setting.digestName? = none) :
      AllAccepted settings := fun setting hmem => Setting.accepted_of_none (h setting hmem)
  refine ⟨?_, ?_, ?_, ?_, ?_, ?_, ?_, ?_, ?_, ?_, ?_, ?_, ?_⟩
  · refine hcongr _ _ _ (hunnamed (by decide)) ?_
      (Function.forall_parameters_iff.mpr ⟨rfl, rfl, ?_⟩)
    · refine List.forall_mem_cons.mpr ⟨?_, hunnamed (by decide)⟩
      rintro _ ⟨⟩
      exact ⟨.sha256, rfl⟩
    · rintro (_ | _ | _) - <;> rfl
  · refine horder _ _ _ (hunnamed (by decide)) (hunnamed (by decide)) ?_
    rintro (_ | _ | _ | _ | _) <;> rfl
  · refine hagain .iteratedDigest [] (.iterations 0) _ (hunnamed (by decide)) ?_
    intro i hgives
    obtain rfl : i = .count .iterations := by
      rcases i with _ | _ | _ | _ | _ <;> first | rfl | cases hgives
    exact ⟨.iterations 5, by simp, rfl⟩
  · exact hproperties .memoryHard [] { iterations := some 2, blockSize := some 3 } []
      (hunnamed (by decide))
  · exact hfallback .legacy [] .keyLength (16 : Nat) [] (hunnamed (by decide)) rfl (by decide)
  · refine hunused .legacy [] (.iterations 0) [] (hunnamed (by decide)) ?_
    exact Function.forall_parameters_iff.mpr ⟨by decide, by decide, List.forall_mem_nil _⟩
  · obtain ⟨hmissing, -⟩ := houtcome .memoryHard [.keyLength 0] (hunnamed (by decide))
    exact hmissing.mpr ⟨by decide, rfl⟩
  · obtain ⟨-, hrefused, -⟩ := houtcome .iteratedDigest [.iterations 0] (hunnamed (by decide))
    refine hrefused.mpr ⟨?_, .inr ⟨.iterations, by decide, rfl⟩⟩
    rintro ⟨-, hnone⟩
    cases hnone
  · obtain ⟨-, -, -, hbuilt⟩ := houtcome .legacy [.keyLength 24] (hunnamed (by decide))
    exact (hbuilt _).mpr ⟨rfl, Function.forall_parameters_iff.mpr ⟨rfl, rfl, List.forall_mem_nil _⟩⟩
  · exact hmissing {} rfl
  · have hname : Function.ofName "argon2" = .error (.invalidValue "function" "argon2") := rfl
    refine hunknown _ _ rfl fun function h => ?_
    cases hname.symm.trans h
  · have hname : Digest.ofName "crc32" = .error (.invalidValue "hashFunction" "crc32") := rfl
    refine hdigest _ "scrypt" .memoryHard _ rfl rfl rfl fun value h => ?_
    cases hname.symm.trans h
  · exact hfunction _ "openssl" .legacy rfl rfl

end Spec

end

end Strongbox.Derivation
