import Strongbox.Json.Number
import Strongbox.Json.Text
/-!
# Walking over a value

A value that is not kept is walked over. The brackets that are open are held as a list, so that
no nesting is too deep for the walk itself. How closely it looks depends on what the value is for:
the value of an unknown member is only checked for its shape, while a value that belongs to a
known member must hold up in all its parts.

## Main definitions

* `Json.Care`: how closely a value is looked at
* `Json.Bracket`: the two kinds of brackets
* `Json.walk`: what follows a value

## Main results

* `Json.length_of_walk`: a walk takes a byte at least
-/

namespace Strongbox.Json

/-- How closely a value is looked at that is not kept. -/
inductive Care where
  /-- Its strings have to be texts and its numbers must not be too large, and no more than `room`
  brackets may be open in it at once. -/
  | strict (source : Source) (room : Nat)
  /-- Only its shape counts. -/
  | lax
deriving DecidableEq, Repr

namespace Care

/-- What follows the rest of a string. -/
def text : Care → Bytes → Except Fault Bytes
  | .strict source _, s => (Json.text source s).map (·.2)
  | .lax, s => skipText s

/-- What follows a number. -/
def number : Care → Bytes → Except Fault Bytes
  | .strict .., s => (Json.number s).map (·.2)
  | .lax, s => (numeral .invalidNumber s).map (·.2)

/-- Whether no further bracket may be opened inside the ones around. -/
def isFull {α : Type} : Care → (around : List α) → Bool
  | .strict _ room, around => room ≤ around.length
  | .lax, _ => false

/-- What follows the opening quote of the next key of an object, after a comma. -/
def nextKey (care : Care) (s : Bytes) : Except Fault Bytes :=
  match skipSpace s with
  | [] => .error (match care with | .strict .. => .endInValue | .lax => .endInObject)
  | b :: rest =>
    if b = quote then .ok rest
    else match care with
      | .strict .. => .error (if b = closeBrace then .trailingComma else .keyNotString)
      | .lax => .error .keyNotString

/-- What follows a value without brackets that starts with the byte `b`. -/
def scalar (care : Care) (b : UInt8) (s : Bytes) : Except Fault Bytes :=
  if b = 0x6E then word ofNull s
  else if b = 0x74 then word ofTrue s
  else if b = 0x66 then word ofFalse s
  else if b = quote then care.text s
  else if b = minus ∨ isDigit b then care.number (b :: s)
  else .error .expectedValue

theorem length_of_text {care : Care} {s rest : Bytes} (h : care.text s = .ok rest) :
    rest.length < s.length := by
  cases care with
  | strict source room =>
    simp only [text] at h
    cases h₁ : Json.text source s with
    | error _ => simp [h₁, Except.map] at h
    | ok p =>
      simp only [h₁, Except.map, Except.ok.injEq] at h
      exact h ▸ Json.length_of_text h₁
  | lax => exact length_of_skipText h

theorem length_of_number {care : Care} {s rest : Bytes} (h : care.number s = .ok rest) :
    rest.length < s.length := by
  cases care with
  | strict source room =>
    simp only [number] at h
    cases h₁ : Json.number s with
    | error _ => simp [h₁, Except.map] at h
    | ok p =>
      simp only [h₁, Except.map, Except.ok.injEq] at h
      exact h ▸ Json.length_of_number h₁
  | lax =>
    simp only [number] at h
    cases h₁ : numeral .invalidNumber s with
    | error _ => simp [h₁, Except.map] at h
    | ok p =>
      simp only [h₁, Except.map, Except.ok.injEq] at h
      exact h ▸ length_of_numeral h₁

theorem length_of_nextKey {care : Care} {s rest : Bytes} (h : care.nextKey s = .ok rest) :
    rest.length < s.length := by
  unfold nextKey at h
  split at h
  · cases h
  · next b r hr =>
    split at h
    · cases h
      exact length_of_skipSpace hr
    · split at h <;> cases h

theorem length_of_scalar {care : Care} {b : UInt8} {s rest : Bytes}
    (h : care.scalar b s = .ok rest) : rest.length ≤ s.length := by
  unfold scalar at h
  split at h
  · exact length_of_word h
  split at h
  · exact length_of_word h
  split at h
  · exact length_of_word h
  split at h
  · exact Nat.le_of_lt (length_of_text h)
  split at h
  · exact Nat.le_of_lt_succ (length_of_number h)
  · cases h

end Care

/-- The two kinds of brackets. -/
inductive Bracket where
  /-- The brackets of an array. -/
  | square
  /-- The brackets of an object. -/
  | curly
deriving DecidableEq, Repr

/-- What follows the key and the colon of a member, the opening quote already read. -/
def walkKey (care : Care) (s : Bytes) : Except Fault Bytes := care.text s >>= afterColon

theorem length_of_walkKey {care : Care} {s rest : Bytes} (h : walkKey care s = .ok rest) :
    rest.length < s.length := by
  simp only [walkKey, bind, Except.bind] at h
  cases h₁ : care.text s with
  | error _ => simp [h₁] at h
  | ok t =>
    have := Care.length_of_text h₁
    have := length_of_afterColon (by simpa [h₁] using h : afterColon t = .ok rest)
    omega

/-- What follows the opening bracket of an array or object: the part of it that is due next. -/
inductive Opened where
  /-- Nothing is in it; `rest` follows it. -/
  | empty (rest : Bytes)
  /-- A value is due. -/
  | value (rest : Bytes)

/-- Looks past the opening bracket of an array. -/
def openArray (s : Bytes) : Except Fault Opened :=
  match skipSpace s with
  | [] => .error .endInList
  | b :: rest => .ok (if b = closeBracket then .empty rest else .value (b :: rest))

/-- Looks past the opening brace of an object, and past its first key. -/
def openObject (care : Care) (s : Bytes) : Except Fault Opened :=
  match skipSpace s with
  | [] => .error .endInObject
  | b :: rest =>
    if b = closeBrace then .ok (.empty rest)
    else if b = quote then (walkKey care rest).map .value
    else .error .keyNotString

/-- Looks past an opening bracket of either kind. -/
def Bracket.opened (care : Care) : Bracket → Bytes → Except Fault Opened
  | .square, s => openArray s
  | .curly, s => openObject care s

/-- The bracket that a byte opens. -/
def Bracket.ofByte? (b : UInt8) : Option Bracket :=
  if b = openBracket then some .square else if b = openBrace then some .curly else none

/-- The byte that closes a bracket. -/
def Bracket.close : Bracket → UInt8
  | .square => closeBracket
  | .curly => closeBrace

/-- The fault if the text ends inside a bracket. -/
def Bracket.unclosed : Bracket → Fault
  | .square => .endInList
  | .curly => .endInObject

/-- The fault if a value inside a bracket is followed by something else than a comma or the
end. -/
def Bracket.unseparated : Bracket → Fault
  | .square => .expectedCommaOrBracket
  | .curly => .expectedCommaOrBrace

/-- Goes past a comma in an array. That no element follows it is a fault of its own only if the
array must hold up. -/
def Care.nextElement (care : Care) (s : Bytes) : Except Fault Bytes :=
  match care with
  | .strict .. => if (skipSpace s).head? = some closeBracket then .error .trailingComma else .ok s
  | .lax => .ok s

/-- Goes past the comma inside a bracket to where a value is due. -/
def Bracket.afterComma (care : Care) : Bracket → Bytes → Except Fault Bytes
  | .square, s => care.nextElement s
  | .curly, s => care.nextKey s >>= walkKey care

/-- The bytes still to be read. -/
def Opened.bytes : Opened → Bytes
  | .empty rest => rest
  | .value rest => rest

theorem Bracket.length_of_opened {care : Care} {bracket : Bracket} {s : Bytes} {found : Opened}
    (h : bracket.opened care s = .ok found) : found.bytes.length ≤ s.length := by
  cases bracket with
  | square =>
    simp only [opened, openArray] at h
    split at h
    · cases h
    · next b r hr =>
      have hlt := length_of_skipSpace hr
      cases h
      split
      · exact Nat.le_of_lt hlt
      · exact hlt
  | curly =>
    simp only [opened, openObject] at h
    split at h
    · cases h
    · next b r hr =>
      have hlt := length_of_skipSpace hr
      split at h
      · cases h
        exact Nat.le_of_lt hlt
      · split at h
        · cases h₁ : walkKey care r with
          | error _ => simp [h₁, Except.map] at h
          | ok t =>
            have := length_of_walkKey h₁
            simp only [h₁, Except.map, Except.ok.injEq] at h
            subst h
            simp only [Opened.bytes]
            omega
        · cases h

theorem Bracket.length_of_afterComma {care : Care} {bracket : Bracket} {s rest : Bytes}
    (h : bracket.afterComma care s = .ok rest) : rest.length ≤ s.length := by
  cases bracket with
  | square =>
    simp only [afterComma, Care.nextElement] at h
    split at h
    · split at h <;> cases h
      exact Nat.le_refl _
    · cases h
      exact Nat.le_refl _
  | curly =>
    simp only [afterComma, bind, Except.bind] at h
    cases h₁ : care.nextKey s with
    | error _ => simp [h₁] at h
    | ok t =>
      have := Care.length_of_nextKey h₁
      have := length_of_walkKey (by simpa [h₁] using h : walkKey care t = .ok rest)
      omega

mutual

/-- What follows a value and the brackets that are open around it. -/
def walkValue (care : Care) (around : List Bracket) (s : Bytes) : Except Fault Bytes :=
  match _h : skipSpace s with
  | [] => .error .endInValue
  | b :: rest =>
    match Bracket.ofByte? b with
    | some bracket =>
      if care.isFull around then .error .recursionLimit
      else match _h₁ : bracket.opened care rest with
        | .error fault => .error fault
        | .ok (.empty rest) => walkRest care around rest
        | .ok (.value rest) => walkValue care (bracket :: around) rest
    | none =>
      match _h₁ : care.scalar b rest with
      | .error fault => .error fault
      | .ok rest => walkRest care around rest
termination_by s.length
decreasing_by
  all_goals
    have := length_of_skipSpace _h
    first
      | have := Bracket.length_of_opened _h₁
        simp only [Opened.bytes] at this
        omega
      | have := Care.length_of_scalar _h₁
        omega

/-- What follows the brackets that are open, after a value in the innermost of them. -/
def walkRest (care : Care) (around : List Bracket) (s : Bytes) : Except Fault Bytes :=
  match around with
  | [] => .ok s
  | bracket :: outer =>
    match _h : skipSpace s with
    | [] => .error bracket.unclosed
    | b :: rest =>
      if b = bracket.close then walkRest care outer rest
      else if b = comma then
        match _h₁ : bracket.afterComma care rest with
        | .error fault => .error fault
        | .ok rest => walkValue care (bracket :: outer) rest
      else .error bracket.unseparated
termination_by s.length
decreasing_by
  all_goals
    have := length_of_skipSpace _h
    first
      | omega
      | have := Bracket.length_of_afterComma _h₁
        omega

end

/-- A walk over a value takes a byte at least, one over what follows a value takes none back. -/
theorem length_of_walkValue_walkRest (care : Care) (n : Nat) :
    (∀ around s rest, s.length ≤ n → walkValue care around s = .ok rest →
      rest.length < s.length) ∧
    (∀ around s rest, s.length ≤ n → walkRest care around s = .ok rest →
      rest.length ≤ s.length) := by
  induction n using Nat.strongRecOn with
  | ind n ih =>
    constructor
    · intro around s rest hn h
      rw [walkValue] at h
      split at h
      · cases h
      · next b r hr =>
        have hlt := length_of_skipSpace hr
        split at h
        · split at h
          · cases h
          · split at h
            · cases h
            · next t ht =>
              have := Bracket.length_of_opened ht
              simp only [Opened.bytes] at this
              have := (ih t.length (by omega)).2 _ _ _ (Nat.le_refl _) h
              omega
            · next t ht =>
              have := Bracket.length_of_opened ht
              simp only [Opened.bytes] at this
              have := (ih t.length (by omega)).1 _ _ _ (Nat.le_refl _) h
              omega
        · split at h
          · cases h
          · next t ht =>
            have := Care.length_of_scalar ht
            have := (ih t.length (by omega)).2 _ _ _ (Nat.le_refl _) h
            omega
    · intro around s rest hn h
      rw [walkRest.eq_def] at h
      split at h
      · cases h
        exact Nat.le_refl _
      · split at h
        · cases h
        · next b r hr =>
          have hlt := length_of_skipSpace hr
          split at h
          · have := (ih r.length (by omega)).2 _ _ _ (Nat.le_refl _) h
            omega
          · split at h
            · split at h
              · cases h
              · next t ht =>
                have := Bracket.length_of_afterComma ht
                have := (ih t.length (by omega)).1 _ _ _ (Nat.le_refl _) h
                omega
            · cases h

/-- What follows a value. -/
def walk (care : Care) (s : Bytes) : Except Fault Bytes := walkValue care [] s

/-- A walk takes a byte at least. -/
theorem length_of_walk {care : Care} {s rest : Bytes} (h : walk care s = .ok rest) :
    rest.length < s.length :=
  (length_of_walkValue_walkRest care s.length).1 [] s rest (Nat.le_refl _) h

end Strongbox.Json
