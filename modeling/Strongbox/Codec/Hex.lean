import Strongbox.Bytes
import Strongbox.Text.Quoted
/-!
# Hexadecimal

Two digits a byte, the high half first. Digits are written in lower case and read in either.

## Main definitions

* `Hex.encode`: the digits of a byte string
* `Hex.decode`: the byte string of a text, given as UTF-8, or what is wrong with it
* `Hex.Fault`: what can be wrong

## Main results

* `Hex.length_encode`: two digits a byte
* `Hex.value?_digit`: each digit reads back as its value
-/

namespace Strongbox.Hex

/-- The digit of a number below sixteen. -/
def digit (value : Nat) : Char :=
  if value < 10 then Char.ofNat (48 + value) else Char.ofNat (87 + value)

/-- The digits of a byte. -/
def pair (b : UInt8) : List Char := [digit (b.toNat / 16), digit (b.toNat % 16)]

/-- The digits of a byte string. -/
def encode (data : Bytes) : List Char := data.flatMap pair

@[simp] theorem encode_nil : encode [] = [] := rfl

@[simp] theorem encode_cons (b : UInt8) (data : Bytes) :
    encode (b :: data) = pair b ++ encode data := by
  simp [encode]

/-- Two digits a byte. -/
@[simp] theorem length_encode (data : Bytes) : (encode data).length = 2 * data.length := by
  induction data with
  | nil => rfl
  | cons b data ih => simp [pair, ih]; omega

/-- The value of a byte that is a digit, in either case. -/
def value? (b : UInt8) : Option Nat :=
  if 48 ≤ b && b ≤ 57 then some (b.toNat - 48)
  else if 97 ≤ b && b ≤ 102 then some (b.toNat - 87)
  else if 65 ≤ b && b ≤ 70 then some (b.toNat - 55)
  else none

/-- Each digit reads back as its value. -/
theorem value?_digit : ∀ value < 16, value? (digit value).toUInt8 = some value := by
  decide

/-- What can be wrong with a text read as hexadecimal. -/
inductive Fault where
  /-- The number of bytes is odd. -/
  | oddLength
  /-- The byte at `offset` is no digit. -/
  | badDigit (b : UInt8) (offset : Nat)
deriving DecidableEq, Repr

/-- The fault in words; the byte is shown as the character of its number. -/
def Fault.message : Fault → String
  | .oddLength => "Odd number of digits"
  | .badDigit b offset =>
    "Invalid character " ++ Text.Quoted.char (Char.ofNat b.toNat) ++ " at position " ++
      toString offset

/-- The value of the byte at `offset`, which has to be a digit. -/
def digitAt (offset : Nat) (b : UInt8) : Except Fault Nat :=
  match value? b with
  | some value => .ok value
  | none => .error (.badDigit b offset)

/-- Reads digits two by two; `offset` is where the first stands. -/
def decodeFrom (offset : Nat) : Bytes → Except Fault Bytes
  | [] => .ok []
  | [_] => .error .oddLength
  | a :: b :: rest => do
    let high ← digitAt offset a
    let low ← digitAt (offset + 1) b
    let data ← decodeFrom (offset + 2) rest
    return UInt8.ofNat (16 * high + low) :: data

/-- The byte string of a text in UTF-8. An odd length is told before any wrong digit. -/
def decode (text : Bytes) : Except Fault Bytes :=
  if text.length % 2 = 1 then .error .oddLength else decodeFrom 0 text

end Strongbox.Hex
