import Strongbox.Proofs.Json.Limits
import Strongbox.Proofs.Json.Local
import Strongbox.Proofs.Json.Sound

/-!
# Texts that are read as bytes

A reader of bytes checks each string that is kept, a reader of a text checks none of them. On the
bytes of a text the checks find nothing: every string starts behind a quote and ends in front of
one, both of them ASCII, and what an escape puts in between is a character. So the two readers agree
on every text, well formed or not, and down to the fault.

## Main definitions

* `Json.Clean`: an outcome that does not say that bytes are no text
* `Json.Alike`: two readings with the same clean outcome
* `Json.WalksAlike`: what is left of a text is walked over alike, in front of a value and behind it
* `Json.ReadsAlike`: a reader for which it makes no difference where what is left of a text is from

## Main results

* `Json.clean_contents`: the contents of a string of a text are a text
* `Json.alike_text`, `Json.alike_walk`: strings that are kept, values that are walked over
* `Json.readsAlike_string`, `Json.readsAlike_natural`, `ReadsAlike.nullable`, `ReadsAlike.refined`:
  the values of fields
* `Schema.readsAlike`, `ReadsAlike.document`: records and documents
-/

namespace Strongbox.Json

open Text.Utf8 (IsText IsTail)

/-- An outcome of reading a text: a result with a property, or a fault other than that bytes are no
text. -/
inductive Clean {α : Type} (Left : α → Prop) : Except Fault α → Prop where
  | ok {result : α} (h : Left result) : Clean Left (.ok result)
  | error {fault : Fault} (h : fault ≠ .invalidCodePoint) : Clean Left (.error fault)

/-- Two readings with the same outcome, which is a clean one. -/
def Alike {α : Type} (Left : α → Prop) (x y : Except Fault α) : Prop := x = y ∧ Clean Left y

section

variable {α β : Type} {Left : α → Prop} {Left' : β → Prop} {x y : Except Fault α}

theorem Clean.of_cases (hok : ∀ result, x = .ok result → Left result)
    (herror : ∀ fault, x = .error fault → fault ≠ .invalidCodePoint) : Clean Left x := by
  cases x with
  | ok result => exact .ok (hok result rfl)
  | error fault => exact .error (herror fault rfl)

theorem Clean.left {result : α} (h : Clean Left (.ok result)) : Left result := by
  cases h
  assumption

theorem Clean.ne {fault : Fault} (h : Clean Left (.error fault)) : fault ≠ .invalidCodePoint := by
  cases h
  assumption

theorem Clean.map {f : α → β} (h : Clean Left x) (hf : ∀ result, Left result → Left' (f result)) :
    Clean Left' (x.map f) := by
  cases h with
  | ok h => exact .ok (hf _ h)
  | error h => exact .error h

/-- What goes on with a clean outcome is clean if what is done then is. -/
theorem Clean.bind {f : α → Except Fault β} (h : Clean Left x)
    (hf : ∀ result, x = .ok result → Left result → Clean Left' (f result)) :
    Clean Left' (x >>= f) := by
  cases h with
  | ok h => exact hf _ rfl h
  | error h => exact .error h

theorem Clean.alike (h : Clean Left x) : Alike Left x x := ⟨rfl, h⟩

theorem Alike.ok {result : α} (h : Left result) : Alike Left (.ok result) (.ok result) :=
  ⟨rfl, .ok h⟩

theorem Alike.error {fault : Fault} (h : fault ≠ .invalidCodePoint) :
    Alike Left (.error fault) (.error fault) :=
  ⟨rfl, .error h⟩

theorem Alike.map {f : α → β} (h : Alike Left x y) (hf : ∀ result, Left result → Left' (f result)) :
    Alike Left' (x.map f) (y.map f) := by
  obtain ⟨rfl, h⟩ := h
  exact (h.map hf).alike

theorem Alike.bind {f g : α → Except Fault β} (h : Alike Left x y)
    (hf : ∀ result, y = .ok result → Left result → Alike Left' (f result) (g result)) :
    Alike Left' (x >>= f) (y >>= g) := by
  obtain ⟨rfl, h⟩ := h
  cases h with
  | ok h => exact hf _ rfl h
  | error h => exact .error h

/-- What goes on with a value and with what is left behind it. -/
theorem Alike.bind_pair {Left : α × Bytes → Prop} {x y : Except Fault (α × Bytes)}
    {f g : α → Bytes → Except Fault β}
    (hf : ∀ value rest, Left (value, rest) → Alike Left' (f value rest) (g value rest)) :
    Alike Left x y →
      Alike Left'
        (match x with
          | .error fault => .error fault
          | .ok (value, rest) => f value rest)
        (match y with
          | .error fault => .error fault
          | .ok (value, rest) => g value rest) := by
  rintro ⟨rfl, h⟩
  cases h with
  | ok h => exact hf _ _ h
  | error h => exact .error h

end

theorem isTail_of_skipSpace {s rest : Bytes} {b : UInt8} (h : IsTail s)
    (hskip : skipSpace s = b :: rest) : IsTail (b :: rest) :=
  h.of_suffix (hskip ▸ List.dropWhile_suffix isSpace)

/-! ## Escapes -/

theorem IsHexDigit.lt {n : Nat} {b : UInt8} (h : IsHexDigit n b) : b < 0x80 := by
  have hascii : ∀ n < 16, (Nat.digitChar n).toUInt8 < 0x80 ∧
      (Nat.digitChar n).toUpper.toUInt8 < 0x80 := by decide
  obtain ⟨hn, rfl | rfl⟩ := h
  · exact (hascii n hn).1
  · exact (hascii n hn).2

theorem SpellsUnit.lt {unit : Nat} {bytes : Bytes} (h : SpellsUnit unit bytes) :
    ∀ b ∈ bytes, b < 0x80 := by
  obtain ⟨_, _, _, _, _, _, _, _, h₁, h₂, h₃, h₄, -, rfl⟩ := h
  simp [h₁.lt, h₂.lt, h₃.lt, h₄.lt]

variable {s : Bytes}

theorem ne_of_hexUnit {fault : Fault} (h : hexUnit s = .error fault) :
    fault ≠ .invalidCodePoint := by
  unfold hexUnit at h
  split at h
  · split at h <;> cases h
    simp
  · cases h
    simp

/-- Four digits are cut off a text. -/
theorem clean_hexUnit (h : IsText s) : Clean (fun read => IsText read.2) (hexUnit s) := by
  refine Clean.of_cases ?_ fun _ => ne_of_hexUnit
  rintro ⟨unit, rest⟩ hunit
  obtain ⟨bytes, hbytes, rfl⟩ := hexUnit_eq_ok_iff.mp hunit
  exact h.of_ascii_append hbytes.lt

theorem clean_pairByte {due : UInt8} (hdue : due < 0x80) (h : IsText s) :
    Clean IsText (pairByte due s) := by
  rw [pairByte.eq_def]
  split
  · exact .error (by simp)
  split
  · next hb => exact .ok (IsText.of_cut (s := []) (hb ▸ hdue) h).2
  · exact .error (by simp)

theorem clean_unitEscape (h : IsText s) : Clean (fun read => IsText read.2) (unitEscape s) := by
  refine (clean_hexUnit h).bind fun ⟨unit, rest⟩ _ hrest => ?_
  dsimp only
  split
  · exact .error (by simp)
  split
  · refine (clean_pairByte (by decide) hrest).bind fun rest _ hrest => ?_
    refine (clean_pairByte (by decide) hrest).bind fun rest _ hrest => ?_
    refine (clean_hexUnit hrest).bind fun ⟨second, rest⟩ _ hrest => ?_
    dsimp only
    split
    · exact .ok hrest
    · exact .error (by simp)
  · exact .ok hrest

/-- An escape is cut off a text. -/
theorem clean_escape (h : IsText s) : Clean (fun read => IsText read.2) (escape s) := by
  rw [escape.eq_def]
  split
  · exact .error (by simp)
  next b rest =>
  split
  · next hb => exact clean_unitEscape (IsText.of_cut (s := []) (by rw [hb]; decide) h).2
  split
  · next c hc =>
    have hletter : ∀ p ∈ letters, p.1 < 0x80 := by decide
    have hb : b < 0x80 := hletter (b, c) (shortEscape?_eq_some_iff.mp hc)
    exact .ok (IsText.of_cut (s := []) hb h).2
  · exact .error (by simp)

/-! ## Strings -/

/-- **The contents of a string of a text are a text**, and so is what follows the string. `before`
is what was read of the string already. -/
theorem clean_contents {before : Bytes} (h : IsText (before ++ s)) :
    Clean (fun read => IsText (before ++ read.1) ∧ IsText read.2) (contents s) := by
  fun_induction contents s generalizing before with
  | case1 => exact .error (by simp)
  | case2 s =>
    obtain ⟨hbefore, hrest⟩ := h.of_cut (by decide)
    exact .ok ⟨by rwa [List.append_nil], hrest⟩
  | case3 s fault hescape =>
    obtain ⟨-, hs⟩ := h.of_cut (by decide)
    exact .error (hescape ▸ clean_escape hs).ne
  | case4 s c rest hescape _ ih =>
    obtain ⟨hbefore, hs⟩ := h.of_cut (by decide)
    have hrest : IsText rest := (hescape ▸ clean_escape hs).left
    have hchar := (hbefore.append (Text.Utf8.isText_utf8EncodeChar c)).append hrest
    refine (ih hchar).map fun read hread => ?_
    rwa [List.append_assoc] at hread
  | case5 => exact .error (by simp)
  | case6 b s _ _ _ ih =>
    have hplain : IsText (before ++ [b] ++ s) := by rwa [List.append_assoc]
    refine (ih hplain).map fun read hread => ?_
    rwa [List.append_assoc] at hread

/-- **A string that is kept** is the same, be its bytes checked or not. -/
theorem alike_text (h : IsText s) :
    Alike (fun read => IsTail read.2) (text .bytes s) (text .text s) := by
  have hcontents : Clean (fun read => IsText ([] ++ read.1) ∧ IsText read.2) (contents s) :=
    clean_contents h
  refine hcontents.alike.bind fun ⟨bytes, rest⟩ _ ⟨hbytes, hrest⟩ => ?_
  rw [List.nil_append] at hbytes
  simp only [hbytes.decode_eq]
  have hleft (value : String) : Clean (fun read => IsTail read.2) (.ok (value, rest)) :=
    .ok hrest.isTail
  exact (hleft _).alike

theorem clean_skipEscape (h : IsTail s) : Clean IsTail (skipEscape s) := by
  apply Clean.of_cases
  · intro rest hrest
    obtain ⟨bytes, -, rfl⟩ := skipEscape_eq_ok_iff.mp hrest
    exact h.of_append
  · intro fault hfault
    rw [skipEscape.eq_def] at hfault
    split at hfault
    · cases hfault
      simp
    split at hfault
    · exact ne_of_hexUnit (map_eq_error_iff.mp hfault)
    · split at hfault <;> cases hfault
      simp

theorem clean_skipText (h : IsTail s) : Clean IsTail (skipText s) := by
  apply Clean.of_cases
  · intro rest hrest
    obtain ⟨bytes, -, rfl⟩ := skipText_eq_ok_iff.mp hrest
    exact IsTail.of_append (s := bytes ++ [quote]) (by rwa [List.append_assoc])
  · intro fault hfault
    fun_induction skipText s with
    | case1 =>
      cases hfault
      simp
    | case2 => cases hfault
    | case3 s fault' hescape =>
      cases hfault
      exact (hescape ▸ clean_skipEscape (h.of_append (s := [backslash]))).ne
    | case4 s rest hescape _ ih =>
      have hs : IsTail s := h.of_append (s := [backslash])
      exact ih (hescape ▸ clean_skipEscape hs).left hfault
    | case5 =>
      cases hfault
      simp
    | case6 b s _ _ _ ih => exact ih (h.of_append (s := [b])) hfault

/-! ## Words and numbers -/

theorem clean_word {due : Bytes} (h : IsTail s) : Clean IsTail (word due s) := by
  apply Clean.of_cases
  · intro rest hrest
    rw [eq_append_of_word hrest] at h
    exact h.of_append
  · intro fault hfault
    induction due generalizing s with
    | nil => cases hfault
    | cons d due ih =>
      cases s with
      | nil =>
        cases hfault
        simp
      | cons b s =>
        rw [word] at hfault
        split at hfault
        · exact ih (h.of_append (s := [b])) hfault
        · cases hfault
          simp

theorem ne_of_digitsDue {atEnd fault : Fault} (hend : atEnd ≠ .invalidCodePoint)
    (h : digitsDue atEnd s = .error fault) : fault ≠ .invalidCodePoint := by
  rw [digitsDue.eq_def] at h
  split at h
  · cases h
    exact hend
  split at h <;> cases h
  simp

theorem ne_of_wholeDigits {atEnd fault : Fault} (hend : atEnd ≠ .invalidCodePoint)
    (h : wholeDigits atEnd s = .error fault) : fault ≠ .invalidCodePoint := by
  rw [wholeDigits.eq_def] at h
  split at h
  · cases h
    exact hend
  split at h
  · split at h <;> cases h
    simp
  split at h <;> cases h
  simp

theorem clean_numeral {atEnd : Fault} (hend : atEnd ≠ .invalidCodePoint) (h : IsTail s) :
    Clean (fun read => IsTail read.2) (numeral atEnd s) := by
  apply Clean.of_cases
  · rintro ⟨n, rest⟩ hread
    obtain ⟨bytes, -, rfl⟩ := exists_of_numeral hread
    exact h.of_append
  · intro fault hfault
    rcases bind_eq_error_iff.mp hfault with hwhole | ⟨⟨whole, t⟩, -, hfault⟩
    · exact ne_of_wholeDigits hend hwhole
    rcases bind_eq_error_iff.mp hfault with hfraction | ⟨⟨fraction, u⟩, -, hfault⟩
    · rw [fractionDigits.eq_def] at hfraction
      split at hfraction
      · exact ne_of_digitsDue hend (map_eq_error_iff.mp hfraction)
      · cases hfraction
    rcases bind_eq_error_iff.mp hfault with hexponent | ⟨⟨exponent, v⟩, -, hfault⟩
    · rw [exponentDigits.eq_def] at hexponent
      split at hexponent
      · cases hexponent
      split at hexponent
      · exact ne_of_digitsDue hend (map_eq_error_iff.mp hexponent)
      · cases hexponent
    · cases hfault

theorem clean_number (h : IsTail s) : Clean (fun read => IsTail read.2) (number s) := by
  refine (clean_numeral (by decide) h).bind fun ⟨n, rest⟩ _ hrest => ?_
  have hvalue : Clean (fun _ => True) n.value :=
    .of_cases (fun _ _ => trivial) fun fault hfault => by
      rw [value_error hfault]
      simp
  exact hvalue.bind fun _ _ _ => .ok hrest

theorem clean_afterColon (h : IsTail s) : Clean IsTail (afterColon s) := by
  rw [afterColon]
  split
  · exact .error (by simp)
  next b rest hskip =>
  split
  · exact .ok ((isTail_of_skipSpace h hskip).of_append (s := [b]))
  · exact .error (by simp)

/-! ## Values that are walked over -/

namespace Care

/-- As close a look at what is from elsewhere. -/
def withSource (source : Source) : Care → Care
  | .strict _ room => .strict source room
  | .lax => .lax

variable (care : Care)

theorem alike_text (h : IsText s) :
    Alike IsTail ((care.withSource .bytes).text s) ((care.withSource .text).text s) := by
  cases care with
  | strict => exact (Json.alike_text h).map fun _ hrest => hrest
  | lax => exact (clean_skipText h.isTail).alike

theorem alike_number (h : IsTail s) :
    Alike IsTail ((care.withSource .bytes).number s) ((care.withSource .text).number s) := by
  cases care with
  | strict => exact ((clean_number h).map fun _ hrest => hrest).alike
  | lax => exact ((clean_numeral (by decide) h).map fun _ hrest => hrest).alike

theorem clean_nextKey (h : IsTail s) : Clean IsText (care.nextKey s) := by
  rw [nextKey.eq_def]
  split
  · cases care <;> exact .error (by simp)
  next b rest hskip =>
  split
  · next hb => exact .ok ((isTail_of_skipSpace h hskip).isText (by rw [hb]; decide))
  cases care
  · dsimp only
    split <;> exact .error (by simp)
  · exact .error (by simp)

theorem alike_nextKey (h : IsTail s) :
    Alike IsText ((care.withSource .bytes).nextKey s) ((care.withSource .text).nextKey s) := by
  refine ⟨?_, clean_nextKey _ h⟩
  cases care <;> rfl

theorem alike_nextElement (h : IsTail s) :
    Alike IsTail ((care.withSource .bytes).nextElement s)
      ((care.withSource .text).nextElement s) := by
  cases care with
  | strict =>
    refine ⟨rfl, ?_⟩
    simp only [withSource, nextElement]
    split
    · exact .error (by simp)
    · exact .ok h
  | lax => exact ⟨rfl, .ok h⟩

theorem isFull_withSource {α : Type} (source source' : Source) (around : List α) :
    (care.withSource source).isFull around = (care.withSource source').isFull around := by
  cases care <;> rfl

theorem alike_scalar {b : UInt8} (h : IsTail (b :: s)) :
    Alike IsTail ((care.withSource .bytes).scalar b s) ((care.withSource .text).scalar b s) := by
  have hs : IsTail s := h.of_append (s := [b])
  rw [scalar, scalar]
  split
  · exact (clean_word hs).alike
  split
  · exact (clean_word hs).alike
  split
  · exact (clean_word hs).alike
  split
  · next hb => exact care.alike_text (h.isText (by rw [hb]; decide))
  split
  · exact care.alike_number h
  · exact Alike.error (by simp)

end Care

variable (care : Care)

theorem alike_walkKey (h : IsText s) :
    Alike IsTail (walkKey (care.withSource .bytes) s) (walkKey (care.withSource .text) s) :=
  (care.alike_text h).bind fun _ _ hrest => (clean_afterColon hrest).alike

theorem Bracket.alike_opened (bracket : Bracket) (h : IsTail s) :
    Alike (fun opened => IsTail opened.bytes) (bracket.opened (care.withSource .bytes) s)
      (bracket.opened (care.withSource .text) s) := by
  cases bracket with
  | square =>
    refine ⟨rfl, ?_⟩
    simp only [opened, openArray]
    split
    · exact .error (by simp)
    next b rest hskip =>
    have hb := isTail_of_skipSpace h hskip
    split
    · exact .ok (hb.of_append (s := [b]))
    · exact .ok hb
  | curly =>
    simp only [opened, openObject]
    split
    · exact Alike.error (by simp)
    next b rest hskip =>
    have hb := isTail_of_skipSpace h hskip
    split
    · have hrest : IsTail rest := hb.of_append (s := [b])
      exact ⟨rfl, .ok hrest⟩
    split
    · next hquote =>
      exact (alike_walkKey care (hb.isText (by rw [hquote]; decide))).map fun _ hrest => hrest
    · exact Alike.error (by simp)

theorem Bracket.alike_afterComma (bracket : Bracket) (h : IsTail s) :
    Alike IsTail (bracket.afterComma (care.withSource .bytes) s)
      (bracket.afterComma (care.withSource .text) s) := by
  cases bracket with
  | square => exact care.alike_nextElement h
  | curly => exact (care.alike_nextKey h).bind fun _ _ hrest => alike_walkKey care hrest

/-- A walk is the same with what is left of a text, in front of a value and behind it. -/
def WalksAlike (s : Bytes) : Prop :=
  IsTail s → ∀ around,
    Alike IsTail (walkValue (care.withSource .bytes) around s)
      (walkValue (care.withSource .text) around s) ∧
    Alike IsTail (walkRest (care.withSource .bytes) around s)
      (walkRest (care.withSource .text) around s)

section

variable (hshorter : ∀ t : Bytes, t.length < s.length → WalksAlike care t)

include hshorter

/-- A step in front of a value. -/
theorem alike_walkValue_of_shorter (h : IsTail s) (around : List Bracket) :
    Alike IsTail (walkValue (care.withSource .bytes) around s)
      (walkValue (care.withSource .text) around s) := by
  cases hskip : skipSpace s with
  | nil =>
    rw [walkValue_of_end hskip, walkValue_of_end hskip]
    exact Alike.error (by simp)
  | cons b t =>
  have hlt := length_of_skipSpace hskip
  have hb := isTail_of_skipSpace h hskip
  cases hbracket : Bracket.ofByte? b with
  | none =>
    rw [walkValue_of_scalar hskip hbracket, walkValue_of_scalar hskip hbracket]
    refine (care.alike_scalar hb).bind fun rest hscalar hrest => ?_
    have hlen := Care.length_of_scalar hscalar
    exact (hshorter rest (by omega) hrest _).2
  | some bracket =>
    obtain rfl := ofByte?_eq_some_iff.mp hbracket
    rw [walkValue_of_bracket hskip, walkValue_of_bracket hskip,
      care.isFull_withSource .bytes .text]
    split
    · exact Alike.error (by simp)
    have halike := bracket.alike_opened care (hb.of_append (s := [_]))
    refine halike.bind fun found hfound hrest => ?_
    have hlen := Bracket.length_of_opened hfound
    cases found with
    | empty rest =>
      rw [Opened.bytes] at hlen
      exact (hshorter rest (by omega) hrest _).2
    | value rest =>
      rw [Opened.bytes] at hlen
      exact (hshorter rest (by omega) hrest _).1

/-- A step behind a value. -/
theorem alike_walkRest_of_shorter (h : IsTail s) (around : List Bracket) :
    Alike IsTail (walkRest (care.withSource .bytes) around s)
      (walkRest (care.withSource .text) around s) := by
  cases around with
  | nil =>
    rw [walkRest, walkRest]
    exact Alike.ok h
  | cons bracket around =>
  cases hskip : skipSpace s with
  | nil =>
    rw [walkRest_of_end hskip, walkRest_of_end hskip]
    cases bracket <;> exact Alike.error (by decide)
  | cons b t =>
  have hlt := length_of_skipSpace hskip
  have ht : IsTail t := (isTail_of_skipSpace h hskip).of_append (s := [b])
  by_cases hclose : b = bracket.close
  · subst hclose
    rw [walkRest_of_close hskip, walkRest_of_close hskip]
    exact (hshorter t hlt ht _).2
  by_cases hcomma : b = comma
  · subst hcomma
    rw [walkRest_of_comma hskip, walkRest_of_comma hskip]
    refine (bracket.alike_afterComma care ht).bind fun rest hafter hrest => ?_
    have hlen := Bracket.length_of_afterComma hafter
    exact (hshorter rest (by omega) hrest _).1
  · rw [walkRest_of_other hskip hclose hcomma, walkRest_of_other hskip hclose hcomma]
    cases bracket <;> exact Alike.error (by decide)

end

/-- Each step takes a byte at least. -/
theorem walksAlike (s : Bytes) : WalksAlike care s := by
  induction hn : s.length using Nat.strongRecOn generalizing s with
  | ind n ih =>
    subst hn
    have hshorter (t : Bytes) (hlt : t.length < s.length) : WalksAlike care t := ih _ hlt t rfl
    exact fun h around => ⟨alike_walkValue_of_shorter care hshorter h around,
      alike_walkRest_of_shorter care hshorter h around⟩

/-- **A value that is walked over** is the same, be the strings in it checked or not. -/
theorem alike_walk (h : IsTail s) :
    Alike IsTail (walk (care.withSource .bytes) s) (walk (care.withSource .text) s) :=
  (walksAlike care s h []).1

/-! ## The values of fields -/

theorem alike_foundAt {b : UInt8} (h : IsTail (b :: s)) :
    Alike (fun _ => True) (foundAt .bytes b s) (foundAt .text b s) := by
  have hs : IsTail s := h.of_append (s := [b])
  rw [foundAt, foundAt]
  split
  · exact ((clean_word hs).map fun _ _ => trivial).alike
  split
  · exact ((clean_word hs).map fun _ _ => trivial).alike
  split
  · exact ((clean_word hs).map fun _ _ => trivial).alike
  split
  · next hb => exact (alike_text (h.isText (by rw [hb]; decide))).map fun _ _ => trivial
  split
  · exact ((clean_number h).map fun _ _ => trivial).alike
  split
  · exact .ok trivial
  split
  · exact .ok trivial
  · exact .error (by simp)

/-- A value of another kind than is expected. -/
theorem alike_mismatch {α : Type} {Left : α → Prop} (expected : String) {b : UInt8}
    (h : IsTail (b :: s)) :
    Alike Left (.error (mismatch .bytes expected b s)) (.error (mismatch .text expected b s)) := by
  obtain ⟨hfound, hclean⟩ := alike_foundAt h
  rw [mismatch, mismatch, hfound]
  generalize foundAt .text b s = outcome at hclean
  cases hclean with
  | ok => exact .error (by simp)
  | error hne => exact .error hne

/-- A reader that agrees with itself on what is left of a text, be it known to be a text or checked,
and leaves some of it. -/
def ReadsAlike {α : Type} (read : Source → Reader α) : Prop :=
  ∀ ⦃s : Bytes⦄, IsTail s → Alike (fun p => IsTail p.2) (read .bytes s) (read .text s)

theorem readsAlike_string : ReadsAlike string := by
  intro s h
  rw [string, string]
  split
  · exact .error (by simp)
  next b rest hskip =>
  have hb := isTail_of_skipSpace h hskip
  split
  · next hquote => exact alike_text (hb.isText (by rw [hquote]; decide))
  · exact alike_mismatch "a string" hb

section

variable {α β : Type} {read : Source → Reader α}

theorem ReadsAlike.map (h : ReadsAlike read) (store : α → β) :
    ReadsAlike fun source s => (read source s).map fun (value, rest) => (store value, rest) :=
  fun _ hs => (h hs).map fun _ hrest => hrest

theorem ReadsAlike.nullable (h : ReadsAlike read) :
    ReadsAlike fun source => Json.nullable (read source) := by
  intro s hs
  beta_reduce
  rw [Json.nullable, Json.nullable]
  split
  · exact .error (by simp)
  next b rest hskip =>
  have hb := isTail_of_skipSpace hs hskip
  split
  · exact (clean_word (hb.of_append (s := [b]))).alike.map fun _ hrest => hrest
  · exact (h hb).map fun _ hrest => hrest

theorem ReadsAlike.refined {make : α → Except String β} (h : ReadsAlike read) :
    ReadsAlike fun source => Json.refined (read source) make := by
  intro s hs
  beta_reduce
  rw [Json.refined, Json.refined]
  refine Alike.bind_pair (fun value rest hrest => ?_) (h hs)
  cases make value with
  | ok made => exact ⟨rfl, .ok hrest⟩
  | error reason => exact .error (by simp)

end

theorem readsAlike_wholeNumber (room : Nat) :
    ReadsAlike fun source => wholeNumber source room := by
  intro s h
  beta_reduce
  rw [wholeNumber, wholeNumber]
  split
  · exact .error (by simp)
  next b rest hskip =>
  have hb := isTail_of_skipSpace h hskip
  split
  · next hquote =>
    obtain ⟨htext, hclean⟩ := alike_text (hb.isText (by rw [hquote]; decide))
    rw [htext]
    generalize text .text rest = outcome at hclean
    cases hclean with
    | error hne => exact .error hne
    | @ok p hrest =>
      dsimp only
      cases spelledNatural? p.1 with
      | some value => exact ⟨rfl, .ok hrest⟩
      | none => exact .error (by simp)
  split
  · have hclean := clean_number hb
    generalize number (b :: rest) = outcome at hclean
    cases hclean with
    | error hne => exact .error hne
    | @ok p hrest =>
      obtain ⟨value, rest⟩ := p
      cases value with
      | natural value => exact ⟨rfl, .ok hrest⟩
      | negative => exact .error (by simp)
      | fraction => exact .error (by simp)
  · obtain ⟨hwalk, hclean⟩ := alike_walk (.strict .text room) hb
    simp only [Care.withSource] at hwalk hclean
    rw [hwalk]
    generalize walk (.strict .text room) (b :: rest) = outcome at hclean
    cases hclean with
    | error hne => exact .error hne
    | ok => exact .error (by simp)

theorem readsAlike_natural (room : Nat) : ReadsAlike fun source => natural source room := by
  intro s h
  beta_reduce
  rw [natural_eq, natural_eq]
  refine (readsAlike_wholeNumber room h).bind fun ⟨n, rest⟩ _ hrest => ?_
  dsimp only
  rw [ofWhole]
  split
  · exact ⟨rfl, .ok hrest⟩
  · exact .error (by simp)

/-! ## Records -/

theorem alike_memberKey (first : Bool) (h : IsTail s) :
    Alike (fun p => IsTail p.2) (memberKey .bytes first s) (memberKey .text first s) := by
  have hkey {rest : Bytes} (hrest : IsText rest) :
      Alike (fun p : Option String × Bytes => IsTail p.2)
        ((text .bytes rest).map fun p => (some p.1, p.2))
        ((text .text rest).map fun p => (some p.1, p.2)) :=
    (alike_text hrest).map fun _ hrest => hrest
  rw [memberKey, memberKey]
  split
  · exact .error (by simp)
  next b rest hskip =>
  have hb := isTail_of_skipSpace h hskip
  have hrest : IsTail rest := hb.of_append (s := [b])
  split
  · exact ⟨rfl, .ok hrest⟩
  split
  · split
    · next hquote => exact hkey (hb.isText (by rw [hquote]; decide))
    · exact .error (by simp)
  split
  · obtain ⟨hnext, hclean⟩ := (Care.strict .text 0).alike_nextKey hrest
    simp only [Care.withSource] at hnext hclean
    rw [hnext]
    generalize (Care.strict .text 0).nextKey rest = outcome at hclean
    cases hclean with
    | error hne => exact .error hne
    | ok hrest => exact hkey hrest
  · exact .error (by simp)

variable {α : Type} {fields : List (Field α)} {room : Nat}

/-- The members of an object. -/
theorem alike_members (hfields : ∀ field ∈ fields, ∀ record,
      ReadsAlike fun source => field.read source room record) (first : Bool) (seen : List String)
    (record : α) (h : IsTail s) :
    Alike (fun p => IsTail p.2) (members fields .bytes room first seen record s)
      (members fields .text room first seen record s) := by
  -- each member takes a byte at least
  induction hn : s.length using Nat.strongRecOn generalizing s first seen record with
  | ind n ih =>
    subst hn
    rw [members_eq_bind, members_eq_bind]
    refine (alike_memberKey first h).bind fun ⟨key, rest⟩ hkey hrest => ?_
    have hlen := length_of_memberKey hkey
    dsimp only at hlen hrest ⊢
    cases key with
    | none => exact ⟨rfl, .ok hrest⟩
    | some key =>
    dsimp only
    cases hfind : fields.find? (·.answersTo key) with
    | none =>
      dsimp only
      refine (clean_afterColon hrest).alike.bind fun t hcolon ht => ?_
      have hlen' := length_of_afterColon hcolon
      refine (alike_walk .lax ht).bind fun u hvalue hu => ?_
      have hlen'' := length_of_walk hvalue
      exact ih u.length (by omega) _ _ _ hu rfl
    | some field =>
      dsimp only
      split
      · exact .error (by simp)
      refine (clean_afterColon hrest).alike.bind fun t hcolon ht => ?_
      have hlen' := length_of_afterColon hcolon
      refine (hfields field (List.mem_of_find?_eq_some hfind) record ht).bind
        fun ⟨record, u⟩ hvalue hu => ?_
      have hlen'' := field.length_of_read hvalue
      exact ih u.length (by omega) _ _ _ hu rfl

theorem clean_endOfArray (h : IsTail s) : Clean IsTail (endOfArray s) := by
  rw [endOfArray]
  split
  · exact .error (by simp)
  next b rest hskip =>
  split
  · exact .ok ((isTail_of_skipSpace h hskip).of_append (s := [b]))
  split <;> exact .error (by simp)

/-- The elements of an array. -/
theorem alike_elements (hfields : ∀ field ∈ fields, ∀ record,
      ReadsAlike fun source => field.read source room record) (first : Bool) (record : α)
    (h : IsTail s) :
    Alike (fun p => IsTail p.2) (elements .bytes room fields first record s)
      (elements .text room fields first record s) := by
  induction fields generalizing first record s with
  | nil =>
    rw [elements, elements]
    exact (clean_endOfArray h).alike.map fun _ hrest => hrest
  | cons field fields ih =>
    obtain ⟨hfield, hfields⟩ := List.forall_mem_cons.mp hfields
    have helement {x y : Except Fault (α × Bytes)} (hread : Alike (fun p => IsTail p.2) x y) :=
      hread.bind_pair fun record rest (hrest : IsTail rest) => ih hfields false record hrest
    rw [elements, elements]
    split
    · exact .error (by simp)
    next b rest hskip =>
    have hb := isTail_of_skipSpace h hskip
    have hrest : IsTail rest := hb.of_append (s := [b])
    split
    · exact ⟨rfl, .ok hrest⟩
    cases first with
    | true => exact helement (hfield record hb)
    | false =>
      simp only [Bool.false_eq_true, if_false]
      by_cases hcomma : b = comma
      · simp only [if_pos hcomma]
        cases hskip' : skipSpace rest with
        | nil => exact .error (by simp)
        | cons c t =>
          by_cases hc : c = closeBracket
          · simp only [if_pos hc]
            exact .error (by simp)
          · simp only [if_neg hc]
            exact helement (hfield record (isTail_of_skipSpace hrest hskip'))
      · simp only [if_neg hcomma]
        exact .error (by simp)

/-- **A record is the same**, be it known to be in a text or checked, if the values of its fields
are. -/
theorem Schema.readsAlike {schema : Schema α} (hfields : ∀ field ∈ schema.fields, ∀ room record,
      ReadsAlike fun source => field.read source room record) (room : Nat) :
    ReadsAlike fun source => schema.read source room := by
  intro s h
  beta_reduce
  rw [Schema.read, Schema.read]
  split
  · exact .error (by simp)
  next b rest hskip =>
  have hb := isTail_of_skipSpace h hskip
  have hrest : IsTail rest := hb.of_append (s := [b])
  split
  · split
    · exact .error (by simp)
    · exact alike_elements (fun field hfield => hfields field hfield _) true schema.initial hrest
  split
  · split
    · exact .error (by simp)
    · exact alike_members (fun field hfield => hfields field hfield _) true [] schema.initial hrest
  · exact alike_mismatch _ hb

/-- **A document that is a text is the same**, read as a text or as bytes. -/
theorem ReadsAlike.document {read : Source → Reader α} (h : ReadsAlike read) (hs : IsText s) :
    Alike (fun _ => True) (Json.document (read .bytes) s) (Json.document (read .text) s) := by
  refine (h hs.isTail).bind fun ⟨value, rest⟩ _ _ => ?_
  dsimp only
  rw [finish]
  split
  · exact ⟨rfl, .ok trivial⟩
  · exact .error (by simp)

end Strongbox.Json
