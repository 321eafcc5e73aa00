/-!
# Shortest decimals

The decimal with the fewest digits that reads back as a given binary floating-point number, and
among those the nearest one. A finite number `m * 2 ^ q` reads back from every real of an interval
around it; the search goes through the grids of one digit, two digits and so on, and tests the
two neighbours of the number on each grid in exact arithmetic.

## Main definitions

* `Decimal`: a decimal `digits * 10 ^ exponent`
* `Decimal.Binary`: a positive finite number `m * 2 ^ q`
* `Binary.ofFloat?`: the number of a float
* `Binary.shortest`: the shortest decimal of a number
-/

namespace Strongbox

/-- A positive decimal `digits * 10 ^ exponent`. -/
structure Decimal where
  /-- The significant digits, read as a number. -/
  digits : Nat
  /-- The power of ten. -/
  exponent : Int
deriving DecidableEq, Repr

namespace Decimal

/-- A positive finite number `mantissa * 2 ^ exponent`. -/
structure Binary where
  /-- The mantissa. -/
  mantissa : Nat
  /-- The power of two. -/
  exponent : Int
deriving DecidableEq, Repr

namespace Binary

/-- The smallest mantissa that has all of its 53 bits. -/
def fullMantissa : Nat := 0x10000000000000

/-- The number of a float, its sign dropped; zero, infinities and what is no number have none. -/
def ofFloat? (x : Float) : Option Binary :=
  let bits : Nat := x.toBits.toNat
  let fraction : Nat := bits % fullMantissa
  let biased : Nat := bits / fullMantissa % 2048
  if biased = 2047 then none
  else if biased = 0 then
    if fraction = 0 then none else some ⟨fraction, -1074⟩
  else some ⟨fullMantissa + fraction, (biased : Int) - 1075⟩

/-- Whether the number is the smallest of its binade, so that the gap below it is half the gap
above. -/
def isBinadeStart (x : Binary) : Bool := x.mantissa = fullMantissa && -1074 < x.exponent

/-- A quarter of the number's last place, times `count`, over `10 ^ ten`, as a fraction. -/
def quarters (x : Binary) (count : Nat) (ten : Int) : Nat × Nat :=
  let two := x.exponent - 2
  (count * Nat.pow 2 two.toNat * Nat.pow 10 (-ten).toNat,
    Nat.pow 2 (-two).toNat * Nat.pow 10 ten.toNat)

/-- Whether `n` times `10 ^ ten` reads back as the number: it lies between the two midpoints to
the neighbours, and on a midpoint only if the mantissa is even. -/
def readsBack (x : Binary) (n : Nat) (ten : Int) : Bool :=
  let below := x.quarters (4 * x.mantissa - (if x.isBinadeStart then 1 else 2)) ten
  let above := x.quarters (4 * x.mantissa + 2) ten
  let low := below.1
  let high := above.1
  let n := n * below.2
  (low < n && n < high) || (x.mantissa % 2 = 0 && (n = low || n = high))

/-- The neighbour on the grid `10 ^ ten` that reads back, the nearer if both do. -/
def onGrid? (x : Binary) (ten : Int) : Option Nat :=
  let value := x.quarters (4 * x.mantissa) ten
  let down := value.1 / value.2
  match x.readsBack down ten, x.readsBack (down + 1) ten with
  | true, true =>
    let rest := 2 * (value.1 % value.2)
    some (if rest < value.2 || (rest = value.2 && down % 2 = 0) then down else down + 1)
  | true, false => some down
  | false, true => some (down + 1)
  | false, false => none

/-- The power of ten of the number's first significant digit. -/
def leading (x : Binary) : Int :=
  let value := x.quarters (4 * x.mantissa) 0
  if value.2 ≤ value.1 then ((Nat.toDigits 10 (value.1 / value.2)).length : Int) - 1
  else
    let scaled := value.1 * Nat.pow 10 400 / value.2
    ((Nat.toDigits 10 scaled).length : Int) - 401

/-- Drops the zeros at the end. -/
def dropZeros : Nat → Decimal → Decimal
  | 0, d => d
  | fuel + 1, d =>
    if d.digits % 10 = 0 && d.digits ≠ 0 then dropZeros fuel ⟨d.digits / 10, d.exponent + 1⟩ else d

/-- The first hit on the grids that are left, from `18 - left` digits to seventeen; seventeen
digits always do, so that the search never runs out. -/
def search (x : Binary) : Nat → Decimal
  | 0 => ⟨0, 0⟩
  | left + 1 =>
    let ten := x.leading - (16 - left : Nat)
    match x.onGrid? ten with
    | some digits => dropZeros 17 ⟨digits, ten⟩
    | none => search x left

/-- The decimal with the fewest digits that reads back, and the nearest of those. -/
def shortest (x : Binary) : Decimal := x.search 17

end Binary

end Decimal

end Strongbox
