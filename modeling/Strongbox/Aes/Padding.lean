import Strongbox.Bytes
/-!
# Padding

A byte string is filled up to whole blocks of sixteen bytes with at least one byte, each of which
says how many there are. What is padded in any other way is refused.

## Main definitions

* `Padding.pad`: fills up a byte string
* `Padding.unpad?`: takes the padding off again, if it is one
-/

namespace Strongbox.Padding

/-- The number of bytes that fill up a byte string of the given length. -/
def count (length : Nat) : Nat := 16 - length % 16

/-- Fills up a byte string. -/
def pad (data : Bytes) : Bytes :=
  data ++ List.replicate (count data.length) (UInt8.ofNat (count data.length))

/-- A byte string without its padding: the last byte counts the bytes of the padding, which are
all like it. -/
def unpad? (padded : Bytes) : Option Bytes :=
  match padded.getLast? with
  | none => none
  | some last =>
    let n := last.toNat
    let kept := padded.length - n
    if 0 < n ∧ n ≤ 16 ∧ n ≤ padded.length ∧ (padded.drop kept).all (· = last) then
      some (padded.take kept)
    else none

end Strongbox.Padding
