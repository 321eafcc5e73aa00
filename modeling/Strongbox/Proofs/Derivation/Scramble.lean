import Mathlib.Logic.Function.Iterate
import Strongbox.Derivation.Scrypt
import Strongbox.Proofs.Bytes

/-!
# The scrambling of a block is that of the standard

The standard has a block as 64 bytes, which it takes for sixteen words of 32 bits. A double round
is a list of steps, each of which changes one word by the sum of two others; a block is scrambled
by four double rounds, and added to what they make.

## Main definitions

* `Scrypt.Step`, `Scrypt.doubleRoundSteps`: the steps of a double round
* `Scrypt.standardScramble`: the scrambling of the standard, of 64 bytes

## Main results

* `Block.toBytes_ofBytes`, `Block.toBytes_xor`: blocks stand for 64 bytes
* `Scrypt.toBytes_scramble`: the scrambling of a block is that of the standard
-/

namespace Strongbox.Scrypt

/-! ## The standard -/

/-- A step: the word at `target` is changed by the sum of the words at `left` and `right`, rotated
by `turn` bits. -/
structure Step where
  /-- The place of the word that is changed. -/
  target : Nat
  /-- The place of one word of the sum. -/
  left : Nat
  /-- The place of the other word of the sum. -/
  right : Nat
  /-- The bits by which the sum is rotated. -/
  turn : UInt32

/-- The words after a step. -/
def Step.apply (words : List UInt32) (step : Step) : List UInt32 :=
  words.set step.target (words.getD step.target 0 ^^^
    rotate (words.getD step.left 0 + words.getD step.right 0) step.turn)

/-- The steps of a double round: the four columns of the square of words, then its four rows. -/
def doubleRoundSteps : List Step := [
  ⟨4, 0, 12, 7⟩, ⟨8, 4, 0, 9⟩, ⟨12, 8, 4, 13⟩, ⟨0, 12, 8, 18⟩,
  ⟨9, 5, 1, 7⟩, ⟨13, 9, 5, 9⟩, ⟨1, 13, 9, 13⟩, ⟨5, 1, 13, 18⟩,
  ⟨14, 10, 6, 7⟩, ⟨2, 14, 10, 9⟩, ⟨6, 2, 14, 13⟩, ⟨10, 6, 2, 18⟩,
  ⟨3, 15, 11, 7⟩, ⟨7, 3, 15, 9⟩, ⟨11, 7, 3, 13⟩, ⟨15, 11, 7, 18⟩,
  ⟨1, 0, 3, 7⟩, ⟨2, 1, 0, 9⟩, ⟨3, 2, 1, 13⟩, ⟨0, 3, 2, 18⟩,
  ⟨6, 5, 4, 7⟩, ⟨7, 6, 5, 9⟩, ⟨4, 7, 6, 13⟩, ⟨5, 4, 7, 18⟩,
  ⟨11, 10, 9, 7⟩, ⟨8, 11, 10, 9⟩, ⟨9, 8, 11, 13⟩, ⟨10, 9, 8, 18⟩,
  ⟨12, 15, 14, 7⟩, ⟨13, 12, 15, 9⟩, ⟨14, 13, 12, 13⟩, ⟨15, 14, 13, 18⟩]

/-- The words after a double round. -/
def standardDoubleRound (words : List UInt32) : List UInt32 :=
  doubleRoundSteps.foldl Step.apply words

/-- A word as four bytes, the least significant first. -/
def wordBytes (w : UInt32) : Bytes := Bytes.littleEndian 4 w.toNat

/-- The word at a place of a byte string. -/
def wordAt (data : Bytes) (i : Nat) : UInt32 := (Bytes.toNat (Bytes.blockAt 4 data i)).toUInt32

/-- The scrambling of the standard: four double rounds, and the sum with the block itself. -/
def standardScramble (data : Bytes) : Bytes :=
  let words := (List.range 16).map (wordAt data)
  (List.zipWith (· + ·) words (standardDoubleRound^[4] words)).flatMap wordBytes

/-! ## Words and bytes -/

@[simp] theorem length_wordBytes (w : UInt32) : (wordBytes w).length = 4 :=
  Bytes.length_littleEndian ..

/-- Four bytes are those of the word they write. -/
theorem wordBytes_toNat {data : Bytes} (h : data.length = 4) :
    wordBytes (Bytes.toNat data).toUInt32 = data := by
  have hlt : Bytes.toNat data < 2 ^ 32 := by
    rw [← Bytes.littleEndian_toNat h, Bytes.toNat_littleEndian]
    exact Nat.mod_lt _ (by decide)
  have hword : (Bytes.toNat data).toUInt32.toNat = Bytes.toNat data :=
    UInt32.toNat_ofNat_of_lt' hlt
  rw [wordBytes, hword, Bytes.littleEndian_toNat h]

theorem toUInt32_wordBytes (w : UInt32) : (Bytes.toNat (wordBytes w)).toUInt32 = w := by
  have hlt : w.toNat < 256 ^ 4 := w.toNat_lt
  rw [wordBytes, Bytes.toNat_littleEndian, Nat.mod_eq_of_lt hlt]
  exact UInt32.ofNat_toNat

/-- The words of the bytes of words. -/
theorem map_wordAt (words : List UInt32) :
    (List.range words.length).map (wordAt (words.flatMap wordBytes)) = words := by
  induction words with
  | nil => rfl
  | cons w words ih =>
    have hlen := length_wordBytes w
    have hhead : wordAt (wordBytes w ++ words.flatMap wordBytes) 0 = w := by
      rw [wordAt, Bytes.blockAt_zero, List.take_left' hlen, toUInt32_wordBytes]
    have htail : ∀ i, wordAt (wordBytes w ++ words.flatMap wordBytes) (i + 1) =
        wordAt (words.flatMap wordBytes) i := by
      intro i
      rw [wordAt, Bytes.blockAt_succ, List.drop_left' hlen, wordAt]
    rw [List.length_cons, List.range_succ_eq_map, List.map_cons, List.map_map, List.flatMap_cons,
      hhead]
    exact congrArg (w :: ·) ((List.map_congr_left fun i _ => htail i).trans ih)

/-! ## Blocks and bytes -/

namespace Block

theorem toList_ofList : ∀ {words : List UInt32}, words.length = 16 → (ofList words).toList = words
  | [_, _, _, _, _, _, _, _, _, _, _, _, _, _, _, _], _ => rfl

theorem toBytes_eq (x : Block) : x.toBytes = x.toList.flatMap wordBytes := rfl

@[simp] theorem length_toBytes (x : Block) : x.toBytes.length = 64 := by
  simp [toBytes, toList]

/-- The block of 64 bytes has these bytes. -/
theorem toBytes_ofBytes {data : Bytes} (h : data.length = 64) : (ofBytes data).toBytes = data := by
  have hblocks : Bytes.blocks 4 data = (List.range 16).map (Bytes.blockAt 4 data) :=
    Bytes.blocks_eq_map_blockAt (by decide) h
  have hwhole : ∀ w ∈ Bytes.blocks 4 data, w.length = 4 :=
    fun w hw => Bytes.length_of_mem_blocks (h ▸ by decide) hw
  have hsixteen : ((Bytes.blocks 4 data).map fun w => (Bytes.toNat w).toUInt32).length = 16 := by
    rw [hblocks, List.length_map, List.length_map, List.length_range]
  calc (ofBytes data).toBytes
      = ((Bytes.blocks 4 data).map fun w => (Bytes.toNat w).toUInt32).flatMap wordBytes := by
        rw [toBytes_eq, ofBytes, toList_ofList hsixteen]
    _ = (Bytes.blocks 4 data).flatMap id := by
        rw [List.flatMap_map]
        exact List.flatMap_congr fun w hw => wordBytes_toNat (hwhole w hw)
    _ = data := by rw [List.flatMap_id, Bytes.flatten_blocks (by decide)]

theorem toList_combine (f : UInt32 → UInt32 → UInt32) (x y : Block) :
    (combine f x y).toList = List.zipWith f x.toList y.toList := rfl

/-- Blocks are combined as their bytes are. -/
theorem toBytes_xor (x y : Block) : (x.xor y).toBytes = Bytes.xor x.toBytes y.toBytes := by
  rw [toBytes_eq, toBytes_eq, toBytes_eq, xor, toList_combine]
  have hlen : x.toList.length = y.toList.length := rfl
  generalize x.toList = xs at hlen
  generalize y.toList = ys at hlen
  induction xs generalizing ys with
  | nil => rw [List.zipWith_nil_left, List.flatMap_nil, Bytes.xor, List.zipWith_nil_left]
  | cons x xs ih =>
    obtain ⟨y, ys, rfl⟩ := List.exists_cons_of_length_eq_add_one hlen.symm
    have hword : wordBytes (x ^^^ y) = Bytes.xor (wordBytes x) (wordBytes y) := by
      rw [wordBytes, UInt32.toNat_xor, Bytes.littleEndian_xor, wordBytes, wordBytes]
    rw [List.zipWith_cons_cons, List.flatMap_cons, List.flatMap_cons, List.flatMap_cons, hword,
      ih ys (Nat.succ.inj hlen), Bytes.xor_append (by simp)]

end Block

/-! ## Scrambling -/

theorem toList_doubleRound (x : Block) :
    (doubleRound x).toList = standardDoubleRound x.toList := by
  obtain ⟨x0, x1, x2, x3, x4, x5, x6, x7, x8, x9, x10, x11, x12, x13, x14, x15⟩ := x
  simp only [doubleRound, quarter, standardDoubleRound, doubleRoundSteps, List.foldl_cons,
    List.foldl_nil, Step.apply, Block.toList, List.getD_cons_zero, List.getD_cons_succ,
    List.set_cons_zero, List.set_cons_succ]

/-- **The scrambling of a block is that of the standard.** -/
theorem toBytes_scramble (x : Block) : (scramble x).toBytes = standardScramble x.toBytes := by
  have hwords : (List.range 16).map (wordAt x.toBytes) = x.toList := map_wordAt x.toList
  rw [Block.toBytes_eq, scramble, Block.add, Block.toList_combine, standardScramble, hwords]
  simp only [toList_doubleRound]
  rfl

end Strongbox.Scrypt
