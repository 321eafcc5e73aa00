import Strongbox.Json.Lexical
import Strongbox.Text.Utf8
/-!
# Strings

The contents of a string between its quotes, over bytes: characters as they are, and escapes. What
is kept of a string is read with its escapes replaced and has to be a text; what is skipped only
has to be well formed. A string is written with as few escapes as there can be.

## Main definitions

* `Json.Source`: whether the document is known to be a text
* `Json.escape`: what can follow a backslash
* `Json.contents`, `Json.text`: the rest of a string that is kept
* `Json.skipText`: the rest of a string that is skipped
* `Json.quoted`: a string as it is written

## Main results

* `Json.length_of_text`, `Json.length_of_skipText`: how much is left
-/

namespace Strongbox.Json

/-- Where a document comes from. -/
inductive Source where
  /-- From a text: what stands in it is known to be characters. -/
  | text
  /-- From bytes: each string that is kept is checked. -/
  | bytes
deriving DecidableEq, Repr

/-- The value of a hexadecimal digit. -/
def hexValue? (b : UInt8) : Option Nat :=
  if 0x30 ≤ b && b ≤ 0x39 then some (b.toNat - 0x30)
  else if 0x61 ≤ b && b ≤ 0x66 then some (b.toNat - 0x57)
  else if 0x41 ≤ b && b ≤ 0x46 then some (b.toNat - 0x37)
  else none

/-- The value of four hexadecimal digits. -/
def hexUnit? (a b c d : UInt8) : Option Nat := do
  return 4096 * (← hexValue? a) + 256 * (← hexValue? b) + 16 * (← hexValue? c) + (← hexValue? d)

/-- A code unit written as four hexadecimal digits, in front of the rest. -/
def hexUnit : Bytes → Except Fault (Nat × Bytes)
  | a :: b :: c :: d :: rest =>
    match hexUnit? a b c d with
    | some value => .ok (value, rest)
    | none => .error .invalidEscape
  | _ => .error .endInString

/-- Code units that start a surrogate pair. -/
def isLeading (unit : Nat) : Bool := 0xD800 ≤ unit && unit ≤ 0xDBFF

/-- Code units that end a surrogate pair. -/
def isTrailing (unit : Nat) : Bool := 0xDC00 ≤ unit && unit ≤ 0xDFFF

/-- The character of a surrogate pair. -/
def ofPair (leading trailing : Nat) : Char :=
  Char.ofNat (0x10000 + 0x400 * (leading - 0xD800) + (trailing - 0xDC00))

/-- The character that a letter after a backslash stands for. -/
def shortEscape? (b : UInt8) : Option Char :=
  if b = quote then some '"'
  else if b = backslash then some '\\'
  else if b = 0x2F then some '/'
  else if b = 0x62 then some '\x08'
  else if b = 0x66 then some '\x0c'
  else if b = 0x6E then some '\n'
  else if b = 0x72 then some '\r'
  else if b = 0x74 then some '\t'
  else none

/-- The byte that must come next in the middle of a surrogate pair. -/
def pairByte (due : UInt8) : Bytes → Except Fault Bytes
  | [] => .error .endInString
  | b :: rest => if b = due then .ok rest else .error .unexpectedEndOfEscape

/-- The character of an escape written as code units; a pair of surrogates is one character. -/
def unitEscape : Reader Char := fun s => do
  let (unit, s) ← hexUnit s
  if isTrailing unit then .error .loneSurrogate
  else if isLeading unit then do
    let s ← pairByte backslash s
    let s ← pairByte 0x75 s
    let (second, s) ← hexUnit s
    if isTrailing second then .ok (ofPair unit second, s) else .error .loneSurrogate
  else .ok (Char.ofNat unit, s)

/-- The character of an escape, the backslash already read. -/
def escape : Reader Char
  | [] => .error .endInString
  | b :: rest =>
    if b = 0x75 then unitEscape rest
    else match shortEscape? b with
      | some c => .ok (c, rest)
      | none => .error .invalidEscape

/-- An escape in a string that is skipped: four digits need not make a character. -/
def skipEscape : Bytes → Except Fault Bytes
  | [] => .error .endInString
  | b :: rest =>
    if b = 0x75 then (hexUnit rest).map (·.2)
    else match shortEscape? b with
      | some _ => .ok rest
      | none => .error .invalidEscape

theorem length_of_hexUnit {s rest : Bytes} {unit : Nat} (h : hexUnit s = .ok (unit, rest)) :
    rest.length < s.length := by
  unfold hexUnit at h
  split at h
  · split at h
    · cases h
      simp only [List.length_cons]
      omega
    · cases h
  · cases h

theorem length_of_pairByte {due : UInt8} {s rest : Bytes} (h : pairByte due s = .ok rest) :
    rest.length < s.length := by
  unfold pairByte at h
  split at h
  · cases h
  · split at h
    · cases h
      simp
    · cases h

theorem length_of_unitEscape {s rest : Bytes} {c : Char} (h : unitEscape s = .ok (c, rest)) :
    rest.length < s.length := by
  unfold unitEscape at h
  cases h₁ : hexUnit s with
  | error _ => simp [h₁, bind, Except.bind] at h
  | ok r₁ =>
    have l₁ := length_of_hexUnit h₁
    simp only [h₁, bind, Except.bind] at h
    split at h
    · cases h
    split at h
    · cases h₂ : pairByte backslash r₁.2 with
      | error _ => simp [h₂] at h
      | ok s₂ =>
        have l₂ := length_of_pairByte h₂
        simp only [h₂] at h
        cases h₃ : pairByte 0x75 s₂ with
        | error _ => simp [h₃] at h
        | ok s₃ =>
          have l₃ := length_of_pairByte h₃
          simp only [h₃] at h
          cases h₄ : hexUnit s₃ with
          | error _ => simp [h₄] at h
          | ok r₄ =>
            have l₄ := length_of_hexUnit h₄
            simp only [h₄] at h
            split at h
            · simp only [Except.ok.injEq, Prod.mk.injEq] at h
              rw [← h.2]
              omega
            · cases h
    · cases h
      exact l₁

/-- Reading an escape takes a byte at least. -/
theorem length_of_escape {s rest : Bytes} {c : Char} (h : escape s = .ok (c, rest)) :
    rest.length < s.length := by
  unfold escape at h
  split at h
  · cases h
  · split at h
    · have := length_of_unitEscape h
      simp only [List.length_cons]
      omega
    · split at h
      · cases h
        simp
      · cases h

/-- Skipping an escape takes a byte at least. -/
theorem length_of_skipEscape {s rest : Bytes} (h : skipEscape s = .ok rest) :
    rest.length < s.length := by
  unfold skipEscape at h
  split at h
  · cases h
  · next b r =>
    split at h
    · cases h₁ : hexUnit r with
      | error _ => simp [h₁, Except.map] at h
      | ok r₁ =>
        have l₁ := length_of_hexUnit h₁
        simp only [h₁, Except.map, Except.ok.injEq] at h
        subst h
        simp only [List.length_cons]
        omega
    · split at h
      · cases h
        simp
      · cases h

/-- The bytes of the rest of a string, escapes replaced by their characters, and what follows the
closing quote. -/
def contents : Bytes → Except Fault (Bytes × Bytes)
  | [] => .error .endInString
  | b :: s =>
    if b = quote then .ok ([], s)
    else if b = backslash then
      match _h : escape s with
      | .error fault => .error fault
      | .ok (c, s) =>
        (contents s).map fun (bytes, rest) => (String.utf8EncodeChar c ++ bytes, rest)
    else if b < 0x20 then .error .controlCharacter
    else (contents s).map fun (bytes, rest) => (b :: bytes, rest)
termination_by s => s.length
decreasing_by
  all_goals simp_wf
  · have := length_of_escape _h
    omega

/-- The rest of a string that is kept. -/
def text (source : Source) : Reader String := fun s => do
  let (bytes, rest) ← contents s
  match source with
  | .text => .ok (String.ofList (Text.Utf8.decodeTrusted bytes), rest)
  | .bytes =>
    match Text.Utf8.decode bytes with
    | .ok value => .ok (value, rest)
    | .error _ => .error .invalidCodePoint

/-- What follows the rest of a string that is skipped. -/
def skipText : Bytes → Except Fault Bytes
  | [] => .error .endInString
  | b :: s =>
    if b = quote then .ok s
    else if b = backslash then
      match _h : skipEscape s with
      | .error fault => .error fault
      | .ok s => skipText s
    else if b < 0x20 then .error .controlCharacter
    else skipText s
termination_by s => s.length
decreasing_by
  all_goals simp_wf
  · have := length_of_skipEscape _h
    omega

theorem length_of_contents {s bytes rest : Bytes} (h : contents s = .ok (bytes, rest)) :
    rest.length < s.length := by
  fun_induction contents s generalizing bytes rest with
  | case1 => cases h
  | case2 =>
    cases h
    simp
  | case3 => cases h
  | case4 s c s' he _ ih =>
    cases h₁ : contents s' with
    | error _ => simp [h₁, Except.map] at h
    | ok r =>
      have := ih h₁
      have := length_of_escape he
      simp only [h₁, Except.map, Except.ok.injEq, Prod.mk.injEq] at h
      simp only [List.length_cons, ← h.2]
      omega
  | case5 => cases h
  | case6 b s _ _ _ ih =>
    cases h₁ : contents s with
    | error _ => simp [h₁, Except.map] at h
    | ok r =>
      have := ih h₁
      simp only [h₁, Except.map, Except.ok.injEq, Prod.mk.injEq] at h
      simp only [List.length_cons, ← h.2]
      omega

/-- Reading the rest of a string takes a byte at least. -/
theorem length_of_text {source : Source} {s rest : Bytes} {value : String}
    (h : text source s = .ok (value, rest)) : rest.length < s.length := by
  unfold text at h
  cases h₁ : contents s with
  | error _ => simp [h₁, bind, Except.bind] at h
  | ok r =>
    have := length_of_contents h₁
    simp only [h₁, bind, Except.bind] at h
    split at h
    · cases h
      exact this
    · split at h
      · cases h
        exact this
      · cases h

/-- Skipping the rest of a string takes a byte at least. -/
theorem length_of_skipText {s rest : Bytes} (h : skipText s = .ok rest) :
    rest.length < s.length := by
  fun_induction skipText s with
  | case1 => cases h
  | case2 =>
    cases h
    simp
  | case3 => cases h
  | case4 s s' he _ ih =>
    have := ih h
    have := length_of_skipEscape he
    simp only [List.length_cons]
    omega
  | case5 => cases h
  | case6 b s _ _ _ ih =>
    have := ih h
    simp only [List.length_cons]
    omega

/-- A character of a string as it is written: quote, backslash and control characters as
escapes, all else as it is. -/
def quotedChar (c : Char) : List Char :=
  if c = '"' then ['\\', '"']
  else if c = '\\' then ['\\', '\\']
  else if c = '\x08' then ['\\', 'b']
  else if c = '\t' then ['\\', 't']
  else if c = '\n' then ['\\', 'n']
  else if c = '\x0c' then ['\\', 'f']
  else if c = '\r' then ['\\', 'r']
  else if c.toNat < 0x20 then
    ['\\', 'u', '0', '0', Nat.digitChar (c.toNat / 16), Nat.digitChar (c.toNat % 16)]
  else [c]

/-- A string as it is written. -/
def quoted (s : String) : String :=
  String.ofList ('"' :: s.toList.flatMap quotedChar ++ ['"'])

end Strongbox.Json
