import Strongbox.Decimal.Shortest
import Strongbox.Json.Lexical
/-!
# Numbers

A number is read in two steps: its spelling, which is all that is looked at in a value that is
skipped, and the number it stands for. Whole numbers that fit into 64 bits are held as they are.
All others are binary floating-point numbers: as many leading digits as fit into 64 bits, scaled
by a power of ten.

## Main definitions

* `Json.Numeral`, `Json.numeral`: the spelling of a number
* `Json.Number`, `Numeral.value`: the number it stands for
* `Json.fractionText`: the shortest spelling of a floating-point number

## Main results

* `Json.length_of_numeral`: how much is left
-/

namespace Strongbox.Json

/-- The spelling of a number. -/
structure Numeral where
  /-- Whether a minus sign stands in front. -/
  negative : Bool
  /-- The digits in front of the point. -/
  whole : Bytes
  /-- The digits behind the point, if there is one. -/
  fraction : Option Bytes
  /-- The exponent, if there is one: whether it is negative, and its digits. -/
  exponent : Option (Bool × Bytes)
deriving DecidableEq, Repr

/-- The digits in front of a byte string, and what follows them. -/
def digits (s : Bytes) : Bytes × Bytes := (s.takeWhile isDigit, s.dropWhile isDigit)

/-- One digit or more; `atEnd` is the fault if the text ends instead. -/
def digitsDue (atEnd : Fault) : Reader Bytes
  | [] => .error atEnd
  | b :: rest => if isDigit b then .ok (digits (b :: rest)) else .error .invalidNumber

/-- The digits in front of the point; a leading zero stands alone. -/
def wholeDigits (atEnd : Fault) : Reader Bytes
  | [] => .error atEnd
  | b :: rest =>
    if b = 0x30 then
      if rest.head?.any isDigit then .error .invalidNumber else .ok ([b], rest)
    else if isDigit b then .ok (digits (b :: rest))
    else .error .invalidNumber

/-- The point and the digits behind it, if there is a point. -/
def fractionDigits (atEnd : Fault) : Reader (Option Bytes)
  | 0x2E :: rest => (digitsDue atEnd rest).map fun (found, rest) => (some found, rest)
  | s => .ok (none, s)

/-- The sign of an exponent, if there is one. -/
def exponentSign : Bytes → Bool × Bytes
  | 0x2B :: rest => (false, rest)
  | 0x2D :: rest => (true, rest)
  | s => (false, s)

/-- The exponent, if there is one. -/
def exponentDigits (atEnd : Fault) : Reader (Option (Bool × Bytes))
  | [] => .ok (none, [])
  | b :: rest =>
    if b = 0x65 ∨ b = 0x45 then
      let (negative, rest) := exponentSign rest
      (digitsDue atEnd rest).map fun (found, rest) => (some (negative, found), rest)
    else .ok (none, b :: rest)

/-- The minus sign in front of a number, if there is one. -/
def minusSign : Bytes → Bool × Bytes
  | 0x2D :: rest => (true, rest)
  | s => (false, s)

/-- The spelling of a number, its sign already read. -/
def unsignedNumeral (atEnd : Fault) (negative : Bool) : Reader Numeral := fun s => do
  let (whole, s) ← wholeDigits atEnd s
  let (fraction, s) ← fractionDigits atEnd s
  let (exponent, s) ← exponentDigits atEnd s
  .ok (⟨negative, whole, fraction, exponent⟩, s)

/-- The spelling of a number; `atEnd` is the fault if the text ends where a digit is due. -/
def numeral (atEnd : Fault) : Reader Numeral := fun s =>
  unsignedNumeral atEnd (minusSign s).1 (minusSign s).2

/-- A number. -/
inductive Number where
  /-- A whole number that is not negative, below `2 ^ 64`. -/
  | natural (value : Nat)
  /-- A whole number below zero, not below `-2 ^ 63`, without its sign. -/
  | negative (value : Nat)
  /-- Any other number. -/
  | fraction (value : Float)

/-- Takes digits into a number as long as it stays below `2 ^ 64`; gives the number and the
digits not taken. -/
def absorb (significand : Nat) : Bytes → Nat × Bytes
  | [] => (significand, [])
  | b :: rest =>
    let next := 10 * significand + (b.toNat - 0x30)
    if next < UInt64.size then absorb next rest else (significand, b :: rest)

/-- The number that a string of digits writes. -/
def decimal (ds : Bytes) : Nat := ds.foldl (fun n b => 10 * n + (b.toNat - 0x30)) 0

/-- The power of ten with an exponent up to 308. -/
def powerOfTen (exponent : Nat) : Float := Float.ofScientific 1 false exponent

/-- A number times a power of ten; what is too large is out of range. -/
def scale (x : Float) (exponent : Int) : Except Fault Float :=
  if 308 < exponent then
    if x == 0 then .ok x else .error .numberOutOfRange
  else if 0 ≤ exponent then
    let y := x * powerOfTen exponent.toNat
    if y.isInf then .error .numberOutOfRange else .ok y
  else if exponent < -308 then
    if x == 0 then .ok x else scale (x / powerOfTen 308) (exponent + 308)
  else .ok (x / powerOfTen (-exponent).toNat)
termination_by exponent.natAbs
decreasing_by omega

/-- The floating-point number of a spelling. -/
def Numeral.float (n : Numeral) : Except Fault Float := do
  let (significand, dropped) := absorb 0 n.whole
  let fraction := n.fraction.getD []
  let (significand, left) := absorb significand fraction
  let shift : Int := dropped.length - (fraction.length - left.length : Nat)
  let (negative, exponent) := n.exponent.getD (false, [])
  let exponent := decimal exponent
  let x ←
    if exponent < 0x80000000 then
      scale significand.toUInt64.toFloat (if negative then shift - exponent else shift + exponent)
    else if significand = 0 ∨ negative then .ok 0
    else .error .numberOutOfRange
  return if n.negative then -x else x

/-- The number a spelling stands for. -/
def Numeral.value (n : Numeral) : Except Fault Number :=
  if n.fraction.isNone && n.exponent.isNone then
    let value := decimal n.whole
    if !n.negative && value < UInt64.size then .ok (.natural value)
    else if n.negative && 0 < value && value ≤ 0x8000000000000000 then .ok (.negative value)
    else n.float.map .fraction
  else n.float.map .fraction

/-- A number that is kept. -/
def number : Reader Number := fun s => do
  let (found, rest) ← numeral .endInValue s
  let value ← found.value
  .ok (value, rest)

/-- The shortest spelling of a positive finite number: positional where the first digit stands
for at least `10 ^ -5` and less than `10 ^ 16`, with a signed exponent elsewhere. -/
def decimalText (x : Decimal) : String :=
  let ds := Nat.toDigits 10 x.digits
  let point : Int := ds.length + x.exponent
  let zeros (n : Int) : List Char := List.replicate n.toNat '0'
  String.ofList <|
    if 0 ≤ x.exponent ∧ point ≤ 16 then ds ++ zeros x.exponent ++ ['.', '0']
    else if 0 < point ∧ point ≤ 16 then ds.take point.toNat ++ '.' :: ds.drop point.toNat
    else if -5 < point ∧ point ≤ 0 then '0' :: '.' :: zeros (-point) ++ ds
    else
      ds.take 1 ++ (if ds.length = 1 then [] else '.' :: ds.drop 1) ++
        'e' :: (if 0 < point then '+' else '-') :: Nat.toDigits 10 (point - 1).natAbs

/-- The shortest spelling of a finite number; zero keeps its sign. -/
def fractionText (x : Float) : String :=
  let sign := if x.toBits < 0x8000000000000000 then "" else "-"
  match Decimal.Binary.ofFloat? x with
  | some binary => sign ++ decimalText binary.shortest
  | none => sign ++ "0.0"

/-- What a number is called where another kind was expected. -/
def Number.found : Number → Found
  | .natural value => .integer value
  | .negative value => .integer (-value)
  | .fraction value => .fraction (fractionText value)

theorem length_of_digitsDue {atEnd : Fault} {s found rest : Bytes}
    (h : digitsDue atEnd s = .ok (found, rest)) : rest.length < s.length := by
  unfold digitsDue at h
  split at h
  · cases h
  · next b r =>
    split at h
    · next hb =>
      simp only [digits, Except.ok.injEq, Prod.mk.injEq, List.dropWhile_cons, hb, if_true] at h
      rw [← h.2, List.length_cons]
      exact Nat.lt_succ_of_le (List.dropWhile_sublist _).length_le
    · cases h

theorem length_of_wholeDigits {atEnd : Fault} {s found rest : Bytes}
    (h : wholeDigits atEnd s = .ok (found, rest)) : rest.length < s.length := by
  unfold wholeDigits at h
  split at h
  · cases h
  · next b r =>
    split at h
    · split at h
      · cases h
      · cases h
        simp
    · split at h
      · next hb =>
        simp only [digits, Except.ok.injEq, Prod.mk.injEq, List.dropWhile_cons, hb, if_true] at h
        rw [← h.2, List.length_cons]
        exact Nat.lt_succ_of_le (List.dropWhile_sublist _).length_le
      · cases h

theorem length_of_fractionDigits {atEnd : Fault} {s rest : Bytes} {found : Option Bytes}
    (h : fractionDigits atEnd s = .ok (found, rest)) : rest.length ≤ s.length := by
  unfold fractionDigits at h
  split at h
  · next r =>
    cases h₁ : digitsDue atEnd r with
    | error _ => simp [h₁, Except.map] at h
    | ok p =>
      have := length_of_digitsDue h₁
      simp only [h₁, Except.map, Except.ok.injEq, Prod.mk.injEq] at h
      rw [← h.2, List.length_cons]
      omega
  · cases h
    exact Nat.le_refl _

theorem length_exponentSign_le (s : Bytes) : (exponentSign s).2.length ≤ s.length := by
  unfold exponentSign
  split <;> simp

theorem length_of_exponentDigits {atEnd : Fault} {s rest : Bytes} {found : Option (Bool × Bytes)}
    (h : exponentDigits atEnd s = .ok (found, rest)) : rest.length ≤ s.length := by
  unfold exponentDigits at h
  split at h
  · cases h
    exact Nat.le_refl _
  · next b r =>
    split at h
    · have hs := length_exponentSign_le r
      cases h₁ : digitsDue atEnd (exponentSign r).2 with
      | error _ => simp [h₁, Except.map] at h
      | ok p =>
        have := length_of_digitsDue h₁
        simp only [h₁, Except.map, Except.ok.injEq, Prod.mk.injEq] at h
        rw [← h.2, List.length_cons]
        omega
    · cases h
      exact Nat.le_refl _

theorem length_minusSign_le (s : Bytes) : (minusSign s).2.length ≤ s.length := by
  unfold minusSign
  split <;> simp

theorem length_of_unsignedNumeral {atEnd : Fault} {negative : Bool} {s rest : Bytes}
    {n : Numeral} (h : unsignedNumeral atEnd negative s = .ok (n, rest)) :
    rest.length < s.length := by
  simp only [unsignedNumeral, bind, Except.bind] at h
  cases h₁ : wholeDigits atEnd s with
  | error _ => simp [h₁] at h
  | ok p₁ =>
    have l₁ := length_of_wholeDigits h₁
    simp only [h₁] at h
    cases h₂ : fractionDigits atEnd p₁.2 with
    | error _ => simp [h₂] at h
    | ok p₂ =>
      have l₂ := length_of_fractionDigits h₂
      simp only [h₂] at h
      cases h₃ : exponentDigits atEnd p₂.2 with
      | error _ => simp [h₃] at h
      | ok p₃ =>
        have l₃ := length_of_exponentDigits h₃
        simp only [h₃, Except.ok.injEq, Prod.mk.injEq] at h
        rw [← h.2]
        omega

/-- Reading a number takes a byte at least. -/
theorem length_of_numeral {atEnd : Fault} {s rest : Bytes} {n : Numeral}
    (h : numeral atEnd s = .ok (n, rest)) : rest.length < s.length :=
  Nat.lt_of_lt_of_le (length_of_unsignedNumeral h) (length_minusSign_le s)

/-- Reading a number takes a byte at least. -/
theorem length_of_number {s rest : Bytes} {n : Number} (h : number s = .ok (n, rest)) :
    rest.length < s.length := by
  unfold number at h
  cases h₁ : numeral .endInValue s with
  | error _ => simp [h₁, bind, Except.bind] at h
  | ok p =>
    have := length_of_numeral h₁
    simp only [h₁, bind, Except.bind] at h
    split at h
    · cases h
    · cases h
      exact this

end Strongbox.Json
