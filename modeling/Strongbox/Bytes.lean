/-!
# Byte strings

A byte string is a list of bytes. This module holds what every layer above shares: the bytewise
exclusive or, the split into blocks, and the two ways to write a number with a fixed number of
bytes.

## Main definitions

* `Bytes`: byte strings
* `Bytes.xor`: the bytewise exclusive or, as long as the shorter operand
* `Bytes.blocks`: the split into blocks of a given length, the last one possibly shorter
* `Bytes.littleEndian`, `Bytes.bigEndian`: a number modulo `256 ^ n` in `n` bytes
* `Bytes.toNat`: the number a little-endian byte string writes
* `Bytes.room`, `Bytes.slice`, `Bytes.splice`: the room left after an offset, what stands there, and
  writing there

## Main results

* `Bytes.length_littleEndian`, `Bytes.length_bigEndian`: a number takes the bytes asked for
* `Bytes.flatten_blocks`: the blocks concatenate to the byte string
-/

namespace Strongbox

/-- A byte string. -/
abbrev Bytes := List UInt8

namespace Bytes

/-- The bytewise exclusive or; the longer operand is cut to the length of the shorter. -/
def xor (a b : Bytes) : Bytes := List.zipWith (· ^^^ ·) a b

@[simp] theorem length_xor (a b : Bytes) : (xor a b).length = min a.length b.length := by
  simp [xor]

/-- The split into blocks of `n` bytes, the last one possibly shorter; there is none of length
zero. -/
def blocks (n : Nat) (data : Bytes) : List Bytes :=
  if data = [] ∨ n = 0 then [] else data.take n :: blocks n (data.drop n)
termination_by data.length
decreasing_by
  rename_i h
  have : data.length ≠ 0 := fun h' => h (.inl (List.length_eq_zero_iff.1 h'))
  simp only [List.length_drop]
  omega

@[simp] theorem blocks_nil (n : Nat) : blocks n [] = [] := by
  rw [blocks]
  simp

/-- The blocks concatenate to the byte string. -/
theorem flatten_blocks {n : Nat} (hn : n ≠ 0) (data : Bytes) :
    (blocks n data).flatten = data := by
  fun_induction blocks n data with
  | case1 data h => simp_all
  | case2 data h ih => simp [ih]

/-- The `n` low bytes of a number, least significant first. -/
def littleEndian : Nat → Nat → Bytes
  | 0, _ => []
  | n + 1, value => UInt8.ofNat value :: littleEndian n (value / 256)

@[simp] theorem length_littleEndian (n value : Nat) : (littleEndian n value).length = n := by
  induction n generalizing value with
  | zero => rfl
  | succ n ih => simp [littleEndian, ih]

/-- The `n` low bytes of a number, most significant first. -/
def bigEndian (n value : Nat) : Bytes := (littleEndian n value).reverse

@[simp] theorem length_bigEndian (n value : Nat) : (bigEndian n value).length = n := by
  simp [bigEndian]

/-- The number a byte string writes, least significant byte first. -/
def toNat (data : Bytes) : Nat := data.foldr (fun b value => b.toNat + 256 * value) 0

@[simp] theorem toNat_nil : toNat [] = 0 := rfl

@[simp] theorem toNat_cons (b : UInt8) (data : Bytes) :
    toNat (b :: data) = b.toNat + 256 * toNat data := rfl

/-- The bytes a buffer holds from an offset on; an offset past the end leaves none. -/
def room (buffer : Bytes) (offset : Nat) : Nat := buffer.length - offset

/-- The bytes of a buffer from an offset on, as many as `length` says. -/
def slice (buffer : Bytes) (offset length : Nat) : Bytes := (buffer.drop offset).take length

/-- The buffer with `data` written over it from an offset on. -/
def splice (buffer : Bytes) (offset : Nat) (data : Bytes) : Bytes :=
  buffer.take offset ++ data ++ buffer.drop (offset + data.length)

/-- Writing within the room there is leaves the length alone. -/
theorem length_splice {buffer data : Bytes} {offset : Nat}
    (h : data.length ≤ room buffer offset) (h' : offset ≤ buffer.length) :
    (splice buffer offset data).length = buffer.length := by
  simp only [room] at h
  simp only [splice, List.length_append, List.length_take, List.length_drop]
  omega

end Bytes

end Strongbox
