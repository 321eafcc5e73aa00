import Mathlib.Logic.Relation
import Strongbox.Naming
import Strongbox.Proofs.Text.Retyped

/-!
# Names as they are typed

Derivation functions, digests, codecs and kinds of vaults are told by their names. How a name may be
typed is a convention of each sort: case and blanks around it never matter, and underscores count as
dashes in the names of functions, dashes as nothing in those of digests. All of them look the form
of a token up among the names, and what is so accepted are the names typed in these ways and nothing
else.

## Main definitions

* `Convention`: values with names, the form that a token is brought into, the rejection of others
* `Convention.Lawful`: forms that tell exactly the ways of typing that are allowed
* `ReadsNames`: a reader that accepts names as they are typed and nothing else

## Main results

* `Convention.readsNames`: what is looked up by a lawful form is read as it is typed
* `names_read_as_typed`: so are functions, digests, codecs and kinds of vaults
-/

namespace Strongbox

open Relation (ReflTransGen)
open Text (Dashed Plain isBlank Retyped SameButCase SameButDashes TokenDashed toDash trimChars)

variable {α : Type} {s t : String} {v : α}

/-! ## Readers of names -/

/-- A reader that accepts names as they are typed and nothing else. -/
structure ReadsNames (ofName : String → Result α) (names : α → List String)
    (fault : String → Error) (allows : List Char → List Char → Prop) : Prop where
  /-- A string typed in another way is the same value, or it is rejected as well. -/
  unchanged : ∀ {s t : String}, ReflTransGen (Retyped allows) s.toList t.toList →
    (∃ v, ofName s = .ok v ∧ ofName t = .ok v) ∨
      ofName s = .error (fault s) ∧ ofName t = .error (fault t)
  /-- A value is read from its names as they are typed. -/
  accepted : ∀ {s : String} {v : α}, ofName s = .ok v ↔
    ∃ name ∈ names v, ReflTransGen (Retyped allows) name.toList s.toList
  /-- A value is read from each of its names. -/
  own : ∀ {v : α} {name : String}, name ∈ names v → ofName name = .ok v
  /-- Between the blanks around it, what is accepted is in ASCII and without blanks. -/
  plain : ∀ {s : String} {v : α}, ofName s = .ok v → ∀ c ∈ trimChars s.toList, Plain c
  /-- What is rejected is the string as it was given. -/
  rejected : ∀ {s : String} {e : Error}, ofName s = .error e → e = fault s

/-- Values with names, the form that a token is brought into to be looked up among the names, and
what a string that is none of them is rejected with. -/
structure Convention (α : Type) where
  /-- The values. -/
  all : List α
  /-- The names of a value. -/
  names : α → List String
  /-- The form of a token. -/
  form : List Char → List Char
  /-- The rejection of a string. -/
  fault : String → Error

namespace Convention

variable {k : Convention α} {allows : List Char → List Char → Prop}

/-- The form of the token of a string. -/
def key (k : Convention α) (s : String) : String := String.ofList (k.form (trimChars s.toList))

/-- The value that has the form of a token for a name. -/
def read (k : Convention α) (s : String) : Result α :=
  match k.all.find? fun v => k.key s ∈ k.names v with
  | some v => .ok v
  | none => .error (k.fault s)

/-- Forms that tell exactly the ways of typing that are allowed. -/
structure Lawful (k : Convention α) (allows : List Char → List Char → Prop) : Prop where
  /-- There are no other values. -/
  complete : ∀ v, v ∈ k.all
  /-- No two values have a name in common. -/
  unique : ∀ {v w name}, name ∈ k.names v → name ∈ k.names w → v = w
  /-- Names are in their form, in ASCII and without blanks. -/
  names_plain : ∀ {v name}, name ∈ k.names v →
    k.form name.toList = name.toList ∧ ∀ c ∈ name.toList, Plain c
  /-- Case does not matter. -/
  form_case : ∀ {cs ds}, SameButCase cs ds → k.form cs = k.form ds
  /-- Nor do the ways of typing a token that are allowed. -/
  form_allows : ∀ {cs ds}, allows cs ds → k.form (trimChars cs) = k.form (trimChars ds)
  /-- A token is its form typed in another way, if that is in ASCII and without blanks, -/
  retyped_form : ∀ {cs}, (∀ c ∈ k.form cs, Plain c) → ReflTransGen (Retyped allows) (k.form cs) cs
  /-- and then it is so itself. -/
  plain_of_form : ∀ {cs}, (∀ c ∈ k.form cs, Plain c) → ∀ c ∈ cs, Plain c

theorem read_eq_ok_iff (h : k.Lawful allows) : k.read s = .ok v ↔ k.key s ∈ k.names v := by
  rw [read]
  split
  · next w hw =>
    have hname : k.key s ∈ k.names w := by simpa using List.find?_some hw
    rw [Except.ok.injEq]
    constructor
    · rintro rfl
      exact hname
    · exact h.unique hname
  · next hnone =>
    have hname : k.key s ∉ k.names v := by simpa using List.find?_eq_none.mp hnone v (h.complete v)
    exact iff_of_false nofun hname

theorem read_cases (k : Convention α) (s : String) :
    (∃ v, k.read s = .ok v) ∨ k.read s = .error (k.fault s) := by
  rw [read]
  split
  · exact .inl ⟨_, rfl⟩
  · exact .inr rfl

/-- The form of a token tells no ways of typing from each other. -/
theorem key_eq_of_retyped (h : k.Lawful allows)
    (hst : ReflTransGen (Retyped allows) s.toList t.toList) : k.key s = k.key t := by
  have hform {cs ds : List Char} (hretyped : ReflTransGen (Retyped allows) cs ds) :
      k.form (trimChars cs) = k.form (trimChars ds) := by
    induction hretyped with
    | refl => rfl
    | tail _ hstep ih => exact ih.trans (hstep.form_eq h.form_case h.form_allows)
  rw [key, key, hform hst]

theorem key_name (h : k.Lawful allows) {name : String} (hname : name ∈ k.names v) :
    k.key name = name := by
  obtain ⟨hform, hplain⟩ := h.names_plain hname
  rw [key, Text.trimChars_eq_self fun c hc => (hplain c hc).2, hform, String.ofList_toList]

/-- A string is the form of its token typed in another way, if that form is a name. -/
theorem retyped_key (h : k.Lawful allows) (hkey : k.key s ∈ k.names v) :
    ReflTransGen (Retyped allows) (k.key s).toList s.toList := by
  have hplain := (h.names_plain hkey).2
  rw [key, String.toList_ofList] at hplain ⊢
  exact (h.retyped_form hplain).tail (Text.retyped_trimChars s.toList)

/-- **What is looked up by a lawful form** is read as it is typed. -/
theorem readsNames (h : k.Lawful allows) : ReadsNames k.read k.names k.fault allows where
  unchanged {s t} hst := by
    have hkey := key_eq_of_retyped h hst
    rcases k.read_cases s with ⟨v, hs⟩ | hs
    · refine .inl ⟨v, hs, ?_⟩
      rw [read_eq_ok_iff h] at hs ⊢
      rwa [← hkey]
    · right
      refine ⟨hs, ?_⟩
      rw [read, hkey] at hs
      rw [read]
      split at hs
      · cases hs
      · rfl
  accepted {s v} := by
    rw [read_eq_ok_iff h]
    constructor
    · intro hkey
      exact ⟨k.key s, hkey, retyped_key h hkey⟩
    · rintro ⟨name, hname, hs⟩
      rwa [← key_eq_of_retyped h hs, key_name h hname]
  own hname := by
    rw [read_eq_ok_iff h, key_name h hname]
    exact hname
  plain hs := by
    have hplain := (h.names_plain ((read_eq_ok_iff h).mp hs)).2
    rw [key, String.toList_ofList] at hplain
    exact h.plain_of_form hplain
  rejected {s e} hs := by
    rcases k.read_cases s with ⟨v, hok⟩ | herror
    · rw [hok] at hs
      cases hs
    · rw [herror] at hs
      exact (Except.error.inj hs).symm

end Convention

/-! ## Conventions -/

/-- Names told without regard to case and to blanks around them, and to nothing else. -/
def Convention.lowerCase (all : List α) (name : α → String) (fault : String → Error) :
    Convention α where
  all
  names v := [name v]
  form := List.map Char.toLower
  fault

theorem Convention.find?_lowerCase {all : List α} {name : α → String} {fault : String → Error} :
    (all.find? fun v => (lowerCase all name fault).key s ∈ (lowerCase all name fault).names v) =
      all.find? (name · = Text.lowered s) := by
  refine congrArg (List.find? · all) (funext fun v => decide_eq_decide.mpr ?_)
  exact List.mem_singleton.trans eq_comm

theorem Convention.lawful_lowerCase {all : List α} {name : α → String} {fault : String → Error}
    (hcomplete : ∀ v, v ∈ all) (hunique : ∀ v w, name v = name w → v = w)
    (hnames : ∀ v, (name v).toList.map Char.toLower = (name v).toList ∧
      ∀ c ∈ (name v).toList, Plain c) :
    (lowerCase all name fault).Lawful fun _ _ => False where
  complete := hcomplete
  unique {v w s} hv hw :=
    hunique v w ((List.mem_singleton.mp hv).symm.trans (List.mem_singleton.mp hw))
  names_plain {v s} hs := by
    cases List.mem_singleton.mp hs
    exact hnames v
  form_case := Text.sameButCase_iff_toLower.mp
  form_allows := False.elim
  retyped_form {cs} _ := .single (.case (Text.sameButCase_map_toLower cs))
  plain_of_form := Text.plain_of_map Text.plain_of_toLower

/-- Names of functions, in which underscores count as dashes. -/
def Derivation.Function.convention : Convention Derivation.Function where
  all := all
  names function := [function.name, function.otherName]
  form cs := (cs.map Char.toLower).map toDash
  fault := .invalidValue "function"

theorem Derivation.Function.ofName_eq_read : ofName = convention.read := by
  funext s
  have hkey : Text.substitute '_' '-' (Text.lowered s) = convention.key s := by
    rw [Text.substitute, Text.lowered, String.toList_ofList]
    rfl
  have hfind : convention.all.find? (fun v => convention.key s ∈ convention.names v) =
      all.find? fun v => v.name = convention.key s || v.otherName = convention.key s := by
    refine congrArg (List.find? · all) (funext fun v => ?_)
    simp [convention, eq_comm]
  rw [ofName, Convention.read, hkey, hfind]
  generalize all.find? _ = found
  cases found <;> rfl

theorem Derivation.Function.lawful_convention : convention.Lawful SameButDashes where
  complete function := by cases function <;> decide
  unique {v w s} hv hw := by
    have hdistinct : ∀ v w : Function, ∀ s ∈ convention.names v,
        s ∈ convention.names w → v = w := by
      rintro (_ | _ | _) (_ | _ | _) <;> decide
    exact hdistinct v w s hv hw
  names_plain {v s} hs := by
    simp only [convention, List.mem_cons, List.not_mem_nil, or_false] at hs
    rcases hs with rfl | rfl
    · cases v <;> exact ⟨rfl, by simp [name, Plain, isBlank]⟩
    · cases v <;> exact ⟨rfl, by simp [otherName, Plain, isBlank]⟩
  form_case h := congrArg (List.map toDash) (Text.sameButCase_iff_toLower.mp h)
  form_allows h := Text.sameButDashes_iff.mp h.trimChars.map_toLower
  retyped_form {cs} _ :=
    .tail (.single (.of_allows (Text.sameButDashes_map_toDash _)))
      (.case (Text.sameButCase_map_toLower cs))
  plain_of_form {cs} h := by
    have hdash (c : Char) (h : Plain (toDash c)) : Plain c := by
      by_cases hc : c = '_'
      · subst hc
        exact ⟨by decide, by decide⟩
      · rwa [toDash, if_neg hc] at h
    exact Text.plain_of_map Text.plain_of_toLower (Text.plain_of_map hdash h)

/-- Names of digests, in which dashes do not count. -/
def Digest.convention : Convention Digest where
  all := all
  names digest := [digest.name]
  form cs := (cs.map Char.toUpper).filter (· ≠ '-')
  fault := .invalidValue "hashFunction"

theorem Digest.ofName_eq_read : ofName = convention.read := by
  funext s
  have hkey : Text.without '-' (Text.uppered s) = convention.key s := by
    rw [Text.without, Text.uppered, String.toList_ofList]
    rfl
  have hfind : convention.all.find? (fun v => convention.key s ∈ convention.names v) =
      all.find? (·.name = convention.key s) := by
    refine congrArg (List.find? · all) (funext fun v => decide_eq_decide.mpr ?_)
    exact List.mem_singleton.trans eq_comm
  rw [ofName, Convention.read, hkey, hfind]
  generalize all.find? _ = found
  cases found <;> rfl

theorem Digest.lawful_convention : convention.Lawful TokenDashed where
  complete digest := by cases digest <;> decide
  unique {v w s} hv hw := by
    have hname : v.name = w.name := (List.mem_singleton.mp hv).symm.trans (List.mem_singleton.mp hw)
    revert hname
    cases v <;> cases w <;> decide
  names_plain {v s} hs := by
    cases List.mem_singleton.mp hs
    cases v <;> exact ⟨rfl, by simp [name, Plain, isBlank]⟩
  form_case h := congrArg (List.filter _) (Text.sameButCase_iff_toUpper.mp h)
  form_allows {cs ds} h := by
    have hdashed : Dashed (cs.map Char.toUpper) (ds.map Char.toUpper) := h.2.map (by decide)
    rw [h.trimChars_eq, h.1]
    exact hdashed.filter_eq.symm
  retyped_form {cs} h := by
    have htoken := Text.trimChars_eq_self fun c hc => (h c hc).2
    refine .tail (.single (.of_allows ⟨htoken, Text.dashed_of_filter _⟩)) ?_
    exact .case (Text.sameButCase_map_toUpper cs)
  plain_of_form {cs} h := by
    refine Text.plain_of_map Text.plain_of_toUpper fun c hc => ?_
    by_cases hdash : c = '-'
    · subst hdash
      exact ⟨by decide, by decide⟩
    · exact h c (List.mem_filter.mpr ⟨hc, by simpa using hdash⟩)

/-- Names of codecs. -/
def Codec.convention : Convention Codec := .lowerCase all name (.invalidValue "codec")

theorem Codec.ofName_eq_read : ofName = convention.read := by
  funext s
  have hfind : convention.all.find? (fun v => convention.key s ∈ convention.names v) =
      all.find? (·.name = Text.lowered s) := Convention.find?_lowerCase
  rw [ofName, Convention.read, hfind]
  generalize all.find? _ = found
  cases found <;> rfl

/-- Names of kinds of vaults. -/
def Vault.Kind.convention : Convention Vault.Kind := .lowerCase all name .unsupportedType

theorem Vault.Kind.ofName_eq_read : ofName = convention.read := by
  funext s
  have hfind : convention.all.find? (fun v => convention.key s ∈ convention.names v) =
      all.find? (·.name = Text.lowered s) := Convention.find?_lowerCase
  rw [ofName, Convention.read, hfind]
  generalize all.find? _ = found
  cases found <;> rfl

theorem Codec.lawful_convention :
    convention.Lawful fun _ _ => False := by
  refine Convention.lawful_lowerCase (fun v => ?_) (fun v w => ?_) fun v => ?_
  · cases v <;> decide
  · cases v <;> cases w <;> decide
  · cases v <;> exact ⟨rfl, by simp [name, Plain, isBlank]⟩

theorem Vault.Kind.lawful_convention :
    convention.Lawful fun _ _ => False := by
  refine Convention.lawful_lowerCase (fun v => ?_) (fun v w => ?_) fun v => ?_
  · cases v <;> decide
  · cases v <;> cases w <;> decide
  · cases v <;> exact ⟨rfl, by simp [name, Plain, isBlank]⟩

/-- **Names are read as they are typed**: in any case, with any blanks around them, with dashes and
underscores for each other in the names of functions and dashes anywhere in those of digests.
Nothing else is accepted, and what is rejected is rejected as it was given. -/
theorem names_read_as_typed :
    ReadsNames Derivation.Function.ofName (fun function => [function.name, function.otherName])
      (.invalidValue "function") SameButDashes ∧
    ReadsNames Digest.ofName (fun digest => [digest.name]) (.invalidValue "hashFunction")
      TokenDashed ∧
    ReadsNames Codec.ofName (fun codec => [codec.name]) (.invalidValue "codec")
      (fun _ _ => False) ∧
    ReadsNames Vault.Kind.ofName (fun kind => [kind.name]) .unsupportedType
      (fun _ _ => False) := by
  rw [Derivation.Function.ofName_eq_read, Digest.ofName_eq_read, Codec.ofName_eq_read,
    Vault.Kind.ofName_eq_read]
  exact ⟨Convention.readsNames Derivation.Function.lawful_convention,
    Convention.readsNames Digest.lawful_convention,
    Convention.readsNames Codec.lawful_convention,
    Convention.readsNames Vault.Kind.lawful_convention⟩

/-- Dashes are put into the name, then its case is changed, then blanks are put around it. A blank
inside is another matter. -/
theorem names_read_as_typed_of_digest :
    Digest.ofName "\u3000-sHa--256\t" = .ok .sha256 ∧
      Digest.ofName "SHA 256" = .error (.invalidValue "hashFunction" "SHA 256") := by
  obtain ⟨-, hdigests, -, -⟩ := names_read_as_typed
  constructor
  · have hdashes : TokenDashed "SHA256".toList "-SHA--256".toList := by
      refine ⟨by decide, ?_⟩
      exact .add (.keep _ (.keep _ (.keep _ (.add (.add (.keep _ (.keep _ (.keep _ .nil))))))))
    have hcase : SameButCase "-SHA--256".toList "-sHa--256".toList :=
      Text.sameButCase_iff_toLower.mpr (by decide +kernel)
    have hblanks : Retyped TokenDashed "-sHa--256".toList "\u3000-sHa--256\t".toList :=
      .blanks (List.forall_mem_singleton.mpr rfl) (List.forall_mem_singleton.mpr rfl) _
    have htyped := ((ReflTransGen.single (.of_allows hdashes)).tail (.case hcase)).tail hblanks
    exact hdigests.accepted.mpr ⟨"SHA256", List.mem_singleton_self _, htyped⟩
  · cases h : Digest.ofName "SHA 256" with
    | ok digest =>
      have hinner : ' ' ∈ Text.trimChars "SHA 256".toList := by decide
      exact absurd (hdigests.plain h ' ' hinner).2 (by decide)
    | error e => rw [hdigests.rejected h]

end Strongbox
