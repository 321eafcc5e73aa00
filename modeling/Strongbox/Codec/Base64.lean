import Strongbox.Bytes
/-!
# Base64

The standard alphabet with padding: three bytes are four symbols of six bits, and the last group
is filled up with `=`. Reading is strict, so that a byte string has one spelling: padding is
complete and nowhere but at the end, and the bits that no byte uses are zero.

## Main definitions

* `Base64.encode`: the symbols of a byte string
* `Base64.decode`: the byte string of a text, given as UTF-8, or what is wrong with it
* `Base64.Fault`: what can be wrong

## Main results

* `Base64.length_encode`: four symbols for each three bytes begun
* `Base64.value?_symbol`: each symbol reads back as its value
-/

namespace Strongbox.Base64

/-- The symbol of a number below 64. -/
def symbol (value : Nat) : Char :=
  if value < 26 then Char.ofNat (65 + value)
  else if value < 52 then Char.ofNat (71 + value)
  else if value < 62 then Char.ofNat (value - 4)
  else if value = 62 then '+'
  else '/'

/-- The value of a byte of the alphabet. -/
def value? (b : UInt8) : Option Nat :=
  if 65 ≤ b && b ≤ 90 then some (b.toNat - 65)
  else if 97 ≤ b && b ≤ 122 then some (b.toNat - 71)
  else if 48 ≤ b && b ≤ 57 then some (b.toNat + 4)
  else if b == 43 then some 62
  else if b == 47 then some 63
  else none

/-- Each symbol reads back as its value. -/
theorem value?_symbol : ∀ value < 64, value? (symbol value).toUInt8 = some value := by
  decide

/-- The symbols of a byte string. -/
def encode : Bytes → List Char
  | [] => []
  | [a] =>
    let n := a.toNat * 65536
    [symbol (n / 262144), symbol (n / 4096 % 64), '=', '=']
  | [a, b] =>
    let n := a.toNat * 65536 + b.toNat * 256
    [symbol (n / 262144), symbol (n / 4096 % 64), symbol (n / 64 % 64), '=']
  | a :: b :: c :: rest =>
    let n := a.toNat * 65536 + b.toNat * 256 + c.toNat
    symbol (n / 262144) :: symbol (n / 4096 % 64) :: symbol (n / 64 % 64) :: symbol (n % 64) ::
      encode rest

/-- Four symbols for each three bytes begun. -/
theorem length_encode (data : Bytes) : (encode data).length = 4 * ((data.length + 2) / 3) := by
  fun_induction encode data with
  | case1 => rfl
  | case2 => simp
  | case3 => simp
  | case4 a b c rest n ih => simp only [List.length_cons, ih]; omega

/-- What can be wrong with a text read as base64. -/
inductive Fault where
  /-- The byte at `offset` has no place there: it is no symbol, or padding before the end. -/
  | badSymbol (b : UInt8) (offset : Nat)
  /-- The last group has a single symbol, which is no byte; `length` counts the symbols. -/
  | badLength (length : Nat)
  /-- The last group is not filled up to four. -/
  | badPadding
  /-- The last symbol, `b` at `offset`, sets bits that no byte uses. -/
  | unusedBits (b : UInt8) (offset : Nat)
deriving DecidableEq, Repr

/-- The fault in words. -/
def Fault.message : Fault → String
  | .badSymbol b offset => s!"Invalid symbol {b}, offset {offset}."
  | .badLength length => s!"Invalid input length: {length}"
  | .badPadding => "Invalid padding"
  | .unusedBits b offset => s!"Invalid last symbol {b}, offset {offset}."

/-- The padding byte `=`. -/
def pad : UInt8 := 61

/-- The value of the byte at `offset`, which has to be a symbol. -/
def valueAt (offset : Nat) (b : UInt8) : Except Fault Nat :=
  match value? b with
  | some value => .ok value
  | none => .error (.badSymbol b offset)

/-- The last group, taken apart: its symbols with their values, and the offset of the first `=`
with the number of them. -/
structure Tail where
  /-- The symbols with their values, in order. -/
  symbols : List (UInt8 × Nat)
  /-- The offset of the first `=`. -/
  padAt : Nat
  /-- The number of `=`. -/
  padding : Nat
deriving DecidableEq, Repr

/-- Takes the last group apart from left to right. No `=` may stand in the group's first two
places or before a symbol. -/
def scanTail (start : Nat) : Nat → Tail → Bytes → Except Fault Tail
  | _, tail, [] => .ok tail
  | index, tail, b :: rest =>
    if b = pad then
      if index < 2 then .error (.badSymbol pad (start + index))
      else
        let padAt := if tail.padding = 0 then start + index else tail.padAt
        scanTail start (index + 1) ⟨tail.symbols, padAt, tail.padding + 1⟩ rest
    else if 0 < tail.padding then .error (.badSymbol pad tail.padAt)
    else match valueAt (start + index) b with
      | .ok value =>
        scanTail start (index + 1) ⟨tail.symbols ++ [(b, value)], tail.padAt, tail.padding⟩ rest
      | .error fault => .error fault

/-- The bytes of the symbols of the last group, whose unused bits have to be zero. -/
def tailBytes (start : Nat) : List (UInt8 × Nat) → Except Fault Bytes
  | [(_, s), (b, t)] =>
    if t % 16 = 0 then .ok [UInt8.ofNat ((s * 64 + t) / 16)]
    else .error (.unusedBits b (start + 1))
  | [(_, s), (_, t), (b, u)] =>
    if u % 4 = 0 then
      let n := (s * 4096 + t * 64 + u) / 4
      .ok [UInt8.ofNat (n / 256), UInt8.ofNat (n % 256)]
    else .error (.unusedBits b (start + 2))
  | [(_, s), (_, t), (_, u), (_, v)] =>
    let n := s * 262144 + t * 4096 + u * 64 + v
    .ok [UInt8.ofNat (n / 65536), UInt8.ofNat (n / 256 % 256), UInt8.ofNat (n % 256)]
  | _ => .ok []

/-- The bytes of the last group, which starts at `start` and is not empty. -/
def decodeTail (start : Nat) (text : Bytes) : Except Fault Bytes := do
  let tail ← scanTail start 0 ⟨[], 0, 0⟩ text
  if tail.symbols.length < 2 then throw (.badLength (start + tail.symbols.length))
  if (tail.padding + tail.symbols.length) % 4 ≠ 0 then throw .badPadding
  tailBytes start tail.symbols

/-- The bytes of four symbols in the middle of a text. -/
def quadBytes (start : Nat) (a b c d : UInt8) : Except Fault Bytes := do
  let s ← valueAt start a
  let t ← valueAt (start + 1) b
  let u ← valueAt (start + 2) c
  let v ← valueAt (start + 3) d
  let n := s * 262144 + t * 4096 + u * 64 + v
  return [UInt8.ofNat (n / 65536), UInt8.ofNat (n / 256 % 256), UInt8.ofNat (n % 256)]

/-- Reads groups of four; what follows the last whole group that has a successor is the last
group. -/
def decodeFrom (start : Nat) : Bytes → Except Fault Bytes
  | [] => .ok []
  | a :: b :: c :: d :: rest =>
    match rest with
    | [] => decodeTail start [a, b, c, d]
    | e :: rest => do
      let group ← quadBytes start a b c d
      let data ← decodeFrom (start + 4) (e :: rest)
      return group ++ data
  | text => decodeTail start text

/-- Whether a byte may stand in a text at all. -/
def isKnown (b : UInt8) : Bool := b == pad || (value? b).isSome

/-- The byte string of a text in UTF-8. A lone byte after the last whole group that cannot stand
in a text is told first, wherever else the text is wrong. -/
def decode (text : Bytes) : Except Fault Bytes :=
  match text.getLast? with
  | some b =>
    if text.length % 4 = 1 && !isKnown b then .error (.badSymbol b (text.length - 1))
    else decodeFrom 0 text
  | none => .ok []

end Strongbox.Base64
