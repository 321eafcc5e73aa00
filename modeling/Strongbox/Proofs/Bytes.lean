import Mathlib.Algebra.Group.Nat.Defs
import Mathlib.Data.List.Basic
import Strongbox.Bytes

/-!
# Byte strings: blocks, numbers and buffers

The split into blocks, on byte strings that are a whole number of blocks, the numbers that byte
strings of a given length write, and writing into a buffer.

## Main results

* `Bytes.blocks_append`: whole blocks split off in front
* `Bytes.blocks_eq_map_blockAt`: whole blocks, one at each place
* `Bytes.length_of_mem_blocks`, `Bytes.blocks_flatten`: on whole blocks the split is the inverse of
  the concatenation
* `Bytes.toNat_littleEndian`: the number written is the number that was to be written, cut to the
  bytes there are
* `Bytes.littleEndian_toNat`: a byte string is what its length writes of its number
* `Bytes.eq_of_toNat_eq`: of one length, only one byte string writes a number
* `Bytes.littleEndian_xor`: numbers combine as the byte strings that write them
* `Bytes.take_splice`: a buffer up to where writing into it ends
* `Bytes.getElem?_splice`: writing into a buffer leaves all else as it was
* `Bytes.xorAt_append`, `Bytes.xorAt_zero`: a difference combined into a buffer
-/

namespace Strongbox.Bytes

variable {n : Nat}

/-! ## Blocks -/

theorem blocks_of_ne_nil (hn : n ≠ 0) {data : Bytes} (h : data ≠ []) :
    blocks n data = data.take n :: blocks n (data.drop n) := by
  rw [blocks, if_neg (by simp [h, hn])]

/-- A block in front is the first block. -/
theorem blocks_append_of_length (hn : n ≠ 0) {a : Bytes} (ha : a.length = n) (b : Bytes) :
    blocks n (a ++ b) = a :: blocks n b := by
  have hne : a ++ b ≠ [] := by
    intro h
    rw [List.append_eq_nil_iff] at h
    exact hn (by rw [← ha, h.1, List.length_nil])
  rw [blocks_of_ne_nil hn hne, List.take_left' ha, List.drop_left' ha]

/-- The split of a concatenation of blocks. -/
theorem blocks_flatten (hn : n ≠ 0) {xs : List Bytes} (h : ∀ x ∈ xs, x.length = n) :
    blocks n xs.flatten = xs := by
  induction xs with
  | nil => simp
  | cons x xs ih =>
    rw [List.flatten_cons, blocks_append_of_length hn (h x List.mem_cons_self),
      ih fun y hy => h y (List.mem_cons_of_mem x hy)]

theorem dvd_length_flatten {xs : List Bytes} (h : ∀ x ∈ xs, x.length = n) :
    n ∣ xs.flatten.length := by
  induction xs with
  | nil => exact Nat.dvd_zero n
  | cons x xs ih =>
    rw [List.flatten_cons, List.length_append, h x List.mem_cons_self]
    exact Nat.dvd_add (Nat.dvd_refl n) (ih fun y hy => h y (List.mem_cons_of_mem x hy))

/-- The blocks of whole blocks all have the same length. -/
theorem length_of_mem_blocks {data : Bytes} (h : n ∣ data.length) {x : Bytes}
    (hx : x ∈ blocks n data) : x.length = n := by
  fun_induction blocks n data with
  | case1 data _ => simp at hx
  | case2 data hne ih =>
    have hpos : 0 < data.length := List.length_pos_iff.mpr fun h' => hne (.inl h')
    have hle : n ≤ data.length := Nat.le_of_dvd hpos h
    rcases List.mem_cons.mp hx with rfl | hx
    · simp [hle]
    · refine ih ?_ hx
      rw [List.length_drop]
      exact Nat.dvd_sub h (Nat.dvd_refl n)

/-- Whole blocks split off in front. -/
theorem blocks_append (hn : n ≠ 0) {a : Bytes} (ha : n ∣ a.length) (b : Bytes) :
    blocks n (a ++ b) = blocks n a ++ blocks n b := by
  have hlen : ∀ x ∈ blocks n a, x.length = n := fun x hx => length_of_mem_blocks ha hx
  conv_lhs => rw [← flatten_blocks hn a]
  generalize blocks n a = xs at hlen
  induction xs with
  | nil => rfl
  | cons x xs ih =>
    rw [List.flatten_cons, List.append_assoc,
      blocks_append_of_length hn (hlen x List.mem_cons_self),
      ih fun y hy => hlen y (List.mem_cons_of_mem x hy), List.cons_append]

/-- A single block. -/
theorem blocks_of_length (hn : n ≠ 0) {a : Bytes} (ha : a.length = n) : blocks n a = [a] := by
  simpa using blocks_append_of_length hn ha []

/-- The block at a place: the bytes that a block takes, from where it starts. -/
def blockAt (n : Nat) (data : Bytes) (i : Nat) : Bytes := (data.drop (n * i)).take n

@[simp] theorem blockAt_zero (data : Bytes) : blockAt n data 0 = data.take n := by
  rw [blockAt, Nat.mul_zero, List.drop_zero]

theorem blockAt_succ (data : Bytes) (i : Nat) :
    blockAt n data (i + 1) = blockAt n (data.drop n) i := by
  rw [blockAt, blockAt, List.drop_drop, Nat.mul_succ, Nat.add_comm]

/-- What stands at a place, between what stands in front and behind. -/
theorem blockAt_append {a x : Bytes} {i : Nat} (ha : a.length = n * i) (hx : x.length = n)
    (b : Bytes) : blockAt n (a ++ (x ++ b)) i = x := by
  rw [blockAt, List.drop_left' ha, List.take_left' hx]

theorem length_blockAt {data : Bytes} {i : Nat} (h : n * (i + 1) ≤ data.length) :
    (blockAt n data i).length = n := by
  rw [Nat.mul_succ] at h
  rw [blockAt, List.length_take, List.length_drop]
  omega

/-- Two blocks next to each other, what stands in front of them and behind. -/
theorem exists_of_two_blocks {j : Nat} {data : Bytes} (h : n * (j + 2) ≤ data.length) :
    ∃ a x y b, data = a ++ (x ++ (y ++ b)) ∧ a.length = n * j ∧ x.length = n ∧ y.length = n := by
  rw [Nat.mul_add, Nat.mul_two] at h
  refine ⟨data.take (n * j), blockAt n data j, (data.drop (n * j + n)).take n,
    (data.drop (n * j + n)).drop n, ?_, ?_, ?_, ?_⟩
  · rw [List.take_append_drop, blockAt, ← List.drop_drop, List.take_append_drop,
      List.take_append_drop]
  · rw [List.length_take]
    omega
  · rw [blockAt, List.length_take, List.length_drop]
    omega
  · rw [List.length_take, List.length_drop]
    omega

/-- Whole blocks, one at each place. -/
theorem blocks_eq_map_blockAt (hn : n ≠ 0) {count : Nat} {data : Bytes}
    (h : data.length = n * count) : blocks n data = (List.range count).map (blockAt n data) := by
  induction count generalizing data with
  | zero =>
    obtain rfl : data = [] := List.length_eq_zero_iff.mp h
    exact blocks_nil n
  | succ count ih =>
    rw [Nat.mul_succ] at h
    have hne : data ≠ [] := by
      rintro rfl
      rw [List.length_nil] at h
      omega
    have hrest : (data.drop n).length = n * count := by rw [List.length_drop, h, Nat.add_sub_cancel]
    rw [blocks_of_ne_nil hn hne, ih hrest, List.range_succ_eq_map, List.map_cons, List.map_map,
      blockAt_zero]
    congr 2
    funext i
    exact (blockAt_succ data i).symm

/-! ## Numbers -/

/-- The number written is the one to be written, cut to the bytes there are. -/
theorem toNat_littleEndian (width value : Nat) :
    toNat (littleEndian width value) = value % 256 ^ width := by
  induction width generalizing value with
  | zero => simp [littleEndian, Nat.mod_one]
  | succ width ih =>
    rw [littleEndian, toNat_cons, ih, UInt8.toNat_ofNat']
    calc value % 256 + 256 * (value / 256 % 256 ^ width)
        = value % (256 * 256 ^ width) := Nat.mod_mul.symm
      _ = value % 256 ^ (width + 1) := by rw [Nat.pow_succ']

/-- Only the bytes there are count. -/
theorem littleEndian_mod (width value : Nat) :
    littleEndian width (value % 256 ^ width) = littleEndian width value := by
  induction width generalizing value with
  | zero => rfl
  | succ width ih =>
    rw [littleEndian, littleEndian, Nat.pow_succ', Nat.mod_mul_right_div_self, ih]
    congr 1
    rw [← UInt8.toNat_inj, UInt8.toNat_ofNat', UInt8.toNat_ofNat', Nat.mod_mul_right_mod]

theorem bigEndian_mod (width value : Nat) :
    bigEndian width (value % 256 ^ width) = bigEndian width value := by
  rw [bigEndian, littleEndian_mod, bigEndian]

/-- Most significant byte first, the number is read back from the reversed byte string. -/
theorem toNat_reverse_bigEndian (width value : Nat) :
    toNat (bigEndian width value).reverse = value % 256 ^ width := by
  rw [bigEndian, List.reverse_reverse, toNat_littleEndian]

/-- A byte string is what its length writes of its number. -/
theorem littleEndian_toNat {width : Nat} {data : Bytes} (h : data.length = width) :
    littleEndian width (toNat data) = data := by
  subst h
  induction data with
  | nil => rfl
  | cons b data ih =>
    have hb := b.toNat_lt
    have hlow : UInt8.ofNat (b.toNat + 256 * toNat data) = b := by
      rw [← UInt8.toNat_inj, UInt8.toNat_ofNat']
      omega
    have hhigh : (b.toNat + 256 * toNat data) / 256 = toNat data := by omega
    rw [List.length_cons, toNat_cons, littleEndian, hlow, hhigh, ih]

theorem toNat_append (a b : Bytes) : toNat (a ++ b) = toNat a + 256 ^ a.length * toNat b := by
  induction a with
  | nil => simp
  | cons x a ih =>
    rw [List.cons_append, toNat_cons, toNat_cons, ih, List.length_cons, Nat.pow_succ', Nat.mul_add,
      Nat.mul_assoc, Nat.add_assoc]

/-- Of one length, only one byte string writes a number. -/
theorem eq_of_toNat_eq {a b : Bytes} (hlen : a.length = b.length) (h : toNat a = toNat b) :
    a = b := by
  induction a generalizing b with
  | nil => exact (List.length_eq_zero_iff.mp hlen.symm).symm
  | cons x a ih =>
    obtain ⟨y, b, rfl⟩ := List.exists_cons_of_length_eq_add_one hlen.symm
    rw [toNat_cons, toNat_cons] at h
    have hx := x.toNat_lt
    have hy := y.toNat_lt
    have hhead : x = y := UInt8.toNat_inj.mp (by omega)
    have htail : a = b := ih (Nat.succ.inj hlen) (by omega)
    rw [hhead, htail]

/-! ## Exclusive or -/

/-- Zeros change nothing. -/
theorem replicate_zero_xor {data : Bytes} (h : data.length = n) :
    xor (List.replicate n 0) data = data := by
  subst h
  induction data with
  | nil => rfl
  | cons b data ih =>
    rw [List.length_cons, List.replicate_succ, xor, List.zipWith_cons_cons, UInt8.zero_xor]
    exact congrArg (b :: ·) ih

theorem xor_append {a b : Bytes} (h : a.length = b.length) (c d : Bytes) :
    xor (a ++ c) (b ++ d) = xor a b ++ xor c d :=
  List.zipWith_append h

theorem xor_assoc (a b c : Bytes) : xor (xor a b) c = xor a (xor b c) := by
  induction a generalizing b c with
  | nil => rfl
  | cons x a ih =>
    rcases b with _ | ⟨y, b⟩
    · rfl
    rcases c with _ | ⟨z, c⟩
    · rfl
    · exact congrArg₂ List.cons (UInt8.xor_assoc x y z) (ih b c)

/-- Only zeros change nothing. -/
theorem eq_replicate_of_xor_eq {a b : Bytes} (hlen : a.length = b.length) (h : xor a b = a) :
    b = List.replicate b.length 0 := by
  induction a generalizing b with
  | nil =>
    obtain rfl : b = [] := List.length_eq_zero_iff.mp hlen.symm
    rfl
  | cons x a ih =>
    obtain ⟨y, b, rfl⟩ := List.exists_cons_of_length_eq_add_one hlen.symm
    have hhead : x ^^^ y = x := (List.cons.inj h).1
    have htail : xor a b = a := (List.cons.inj h).2
    have hzero : y = 0 := by
      calc y = x ^^^ (x ^^^ y) := by rw [← UInt8.xor_assoc, UInt8.xor_self, UInt8.zero_xor]
        _ = 0 := by rw [hhead, UInt8.xor_self]
    rw [List.length_cons, List.replicate_succ, ← ih (Nat.succ.inj hlen) htail, hzero]

/-- Numbers combine as the byte strings that write them. -/
theorem littleEndian_xor (width a b : Nat) :
    littleEndian width (a ^^^ b) = xor (littleEndian width a) (littleEndian width b) := by
  induction width generalizing a b with
  | zero => rfl
  | succ width ih =>
    have hhigh : (a ^^^ b) / 256 = a / 256 ^^^ b / 256 := Nat.xor_div_two_pow (n := 8)
    have hlow : UInt8.ofNat (a ^^^ b) = UInt8.ofNat a ^^^ UInt8.ofNat b := UInt8.ofNat_xor ..
    rw [littleEndian, littleEndian, littleEndian, hhigh, ih, hlow]
    rfl

/-! ## Buffers -/

/-- The buffer up to where the writing ends: what stood in front, and what is written. -/
theorem take_splice {buffer : Bytes} {offset : Nat} (h : offset ≤ buffer.length) (data : Bytes) :
    (splice buffer offset data).take (offset + data.length) = buffer.take offset ++ data := by
  have hlength : (buffer.take offset ++ data).length = offset + data.length := by
    rw [List.length_append, List.length_take, Nat.min_eq_left h]
  rw [splice, List.take_left' hlength]

/-- What is written stands in its place, and all else is as it was. -/
theorem getElem?_splice {buffer data : Bytes} {offset : Nat} (h : offset ≤ buffer.length)
    (i : Nat) :
    (splice buffer offset data)[i]? =
      if offset ≤ i ∧ i < offset + data.length then data[i - offset]? else buffer[i]? := by
  have htake : (buffer.take offset).length = offset := by rw [List.length_take, Nat.min_eq_left h]
  rw [splice, List.append_assoc]
  rcases Nat.lt_or_ge i offset with hlt | hge
  · rw [if_neg (by omega), List.getElem?_append_left (by omega), List.getElem?_take_of_lt hlt]
  rw [List.getElem?_append_right (by omega), htake]
  rcases Nat.lt_or_ge (i - offset) data.length with hlt' | hge'
  · rw [if_pos (by omega), List.getElem?_append_left hlt']
  · rw [if_neg (by omega), List.getElem?_append_right hge', List.getElem?_drop]
    congr 1
    omega

/-- The buffer with a difference combined into it from an offset on. -/
def xorAt (buffer : Bytes) (offset : Nat) (delta : Bytes) : Bytes :=
  splice buffer offset (xor (slice buffer offset delta.length) delta)

theorem length_xorAt {buffer delta : Bytes} {offset : Nat}
    (h : offset + delta.length ≤ buffer.length) :
    (xorAt buffer offset delta).length = buffer.length := by
  refine length_splice ?_ (by omega)
  rw [length_xor, room]
  omega

/-- A difference behind what stands in front. -/
theorem xorAt_append (a b : Bytes) (offset : Nat) (delta : Bytes) :
    xorAt (a ++ b) (a.length + offset) delta = a ++ xorAt b offset delta := by
  have hslice : slice (a ++ b) (a.length + offset) delta.length = slice b offset delta.length := by
    rw [slice, slice, List.drop_length_add_append]
  rw [xorAt, xorAt, hslice, splice, splice, List.take_length_add_append, Nat.add_assoc,
    List.drop_length_add_append]
  simp only [List.append_assoc]

/-- A difference in front of what stands behind. -/
theorem xorAt_zero {x delta : Bytes} (h : x.length = delta.length) (b : Bytes) :
    xorAt (x ++ b) 0 delta = xor x delta ++ b := by
  have hslice : slice (x ++ b) 0 delta.length = x := by
    rw [slice, List.drop_zero, ← h, List.take_left]
  have hlength : (xor x delta).length = x.length := by rw [length_xor, ← h, Nat.min_self]
  rw [xorAt, hslice, splice, List.take_zero, List.nil_append, hlength, Nat.zero_add, List.drop_left]

end Strongbox.Bytes
