import Strongbox.Proofs.Derivation.Pbkdf2
import Strongbox.Proofs.Derivation.Runnable
import Strongbox.Proofs.Derivation.Scramble

/-!
# Memory-hard keys are those of the standard

The standard works on lanes of `2 * r` blocks of 64 bytes. One mixing of a lane scrambles its
blocks one after another, each with the one before it, and sorts those at even places in front of
those at odd ones. A lane is mixed `N` times, and then `N` times more while it is combined with one
of its first `N` states. Which one, the number that its last block writes says, modulo `N`. As `N`
is a power of two below `2 ^ 32`, the first word of that block says the same, and as all of the
first `N` states are in the table, none is looked for in vain.

## Main definitions

* `Scrypt.standardMix`: one mixing of a lane of the standard
* `Scrypt.integerify`, `Scrypt.standardStep`, `Scrypt.standardWork`: the work of the standard on a
  lane
* `Scrypt.standard`: the key of the standard

## Main results

* `Scrypt.laneBytes_mix`: one mixing is that of the standard
* `Scrypt.table_eq`: the table holds the lane mixed no time, once, twice and so on
* `Scrypt.pick_mod`: a lane picks the state that the number of its last block says
* `Scrypt.work_eq_standardWork`: the work on a lane is that of the standard
* `Kdf.deriveKey_memoryHard`: every spec of memory-hard mixing that can run makes the key of the
  standard
-/

namespace Strongbox

namespace Scrypt

/-! ## The standard -/

section Standard

variable (r : Nat)

/-- The blocks of a lane, scrambled one after another, each with the one before it and the first
with the last. -/
def linked (data : Bytes) : Nat → Bytes
  | 0 => standardScramble (Bytes.xor (Bytes.blockAt 64 data (2 * r - 1)) (Bytes.blockAt 64 data 0))
  | i + 1 => standardScramble (Bytes.xor (linked data i) (Bytes.blockAt 64 data (i + 1)))

/-- One mixing of a lane: the scrambled blocks at even places, then those at odd ones. -/
def standardMix (data : Bytes) : Bytes :=
  ((List.range r).flatMap fun i => linked r data (2 * i)) ++
    (List.range r).flatMap fun i => linked r data (2 * i + 1)

/-- The number that the last block of a lane writes. -/
def integerify (data : Bytes) : Nat := Bytes.toNat (Bytes.blockAt 64 data (2 * r - 1))

/-- The state a lane goes on in, on the second half of its way: it is combined with the one of its
first `cost` states that its number says, and mixed. -/
def standardStep (cost : Nat) (data x : Bytes) : Bytes :=
  standardMix r (Bytes.xor x ((standardMix r)^[integerify r x % cost] data))

/-- The work on a lane: it is mixed `cost` times, and goes on as many steps from there. -/
def standardWork (cost : Nat) (data : Bytes) : Bytes :=
  (standardStep r cost data)^[cost] ((standardMix r)^[cost] data)

/-- The key of the standard. -/
def standard (cost parallelization : Nat) (password salt : Bytes) (length : Nat) : Bytes :=
  let lanes := Pbkdf2.standard .sha256 password salt 1 (128 * r * parallelization)
  let worked := (List.range parallelization).flatMap fun i =>
    standardWork r cost (Bytes.blockAt (128 * r) lanes i)
  Pbkdf2.standard .sha256 password worked 1 length

end Standard

/-! ## Lanes -/

/-- The bytes of a lane. -/
def laneBytes (lane : List Block) : Bytes := lane.flatMap Block.toBytes

@[simp] theorem laneBytes_cons (x : Block) (lane : List Block) :
    laneBytes (x :: lane) = x.toBytes ++ laneBytes lane :=
  List.flatMap_cons

@[simp] theorem laneBytes_append (lane more : List Block) :
    laneBytes (lane ++ more) = laneBytes lane ++ laneBytes more :=
  List.flatMap_append

theorem laneBytes_map (f : Nat → Block) (places : List Nat) :
    laneBytes (places.map f) = places.flatMap fun i => (f i).toBytes :=
  List.flatMap_map ..

/-- The bytes of a block of a lane. -/
theorem blockAt_laneBytes {lane : List Block} {i : Nat} (h : i < lane.length) :
    Bytes.blockAt 64 (laneBytes lane) i = lane[i].toBytes := by
  induction lane generalizing i with
  | nil => exact absurd h (Nat.not_lt_zero i)
  | cons x lane ih =>
    have hlen := x.length_toBytes
    cases i with
    | zero => rw [laneBytes_cons, Bytes.blockAt_zero, List.take_left' hlen]; rfl
    | succ i =>
      rw [laneBytes_cons, Bytes.blockAt_succ, List.drop_left' hlen, ih (Nat.lt_of_succ_lt_succ h)]
      rfl

/-- The lane of a whole number of blocks has their bytes. -/
theorem laneBytes_ofBytes {data : Bytes} (h : 64 ∣ data.length) :
    laneBytes ((Bytes.blocks 64 data).map .ofBytes) = data := by
  have hwhole : ∀ b ∈ Bytes.blocks 64 data, (Block.ofBytes b).toBytes = b :=
    fun b hb => Block.toBytes_ofBytes (Bytes.length_of_mem_blocks h hb)
  rw [laneBytes, List.flatMap_map, List.flatMap_congr hwhole, List.flatMap_id',
    Bytes.flatten_blocks (by decide)]

/-- Lanes are combined as their bytes are. -/
theorem laneBytes_zipWith_xor {lane other : List Block} (h : lane.length = other.length) :
    laneBytes (List.zipWith Block.xor lane other) =
      Bytes.xor (laneBytes lane) (laneBytes other) := by
  induction lane generalizing other with
  | nil => rfl
  | cons x lane ih =>
    obtain ⟨y, other, rfl⟩ := List.exists_cons_of_length_eq_add_one h.symm
    rw [List.zipWith_cons_cons, laneBytes_cons, laneBytes_cons, laneBytes_cons,
      ih (Nat.succ.inj h), Block.toBytes_xor, Bytes.xor_append (by simp)]

/-! ## One mixing -/

@[simp] theorem length_scrambleFrom (last : Block) (lane : List Block) :
    (scrambleFrom last lane).length = lane.length := by
  induction lane generalizing last with
  | nil => rfl
  | cons x lane ih => rw [scrambleFrom, List.length_cons, ih, List.length_cons]

/-- The first block is scrambled with the one in front of the lane. -/
theorem getD_scrambleFrom_zero (last : Block) {lane : List Block} (h : lane ≠ []) :
    (scrambleFrom last lane).getD 0 default = scramble (last.xor (lane.getD 0 default)) := by
  cases lane with
  | nil => exact absurd rfl h
  | cons x lane => rfl

/-- Each further block is scrambled with the one before it. -/
theorem getD_scrambleFrom_succ (last : Block) {lane : List Block} {i : Nat}
    (h : i + 1 < lane.length) :
    (scrambleFrom last lane).getD (i + 1) default =
      scramble (((scrambleFrom last lane).getD i default).xor (lane.getD (i + 1) default)) := by
  induction lane generalizing last i with
  | nil => exact absurd h (Nat.not_lt_zero _)
  | cons x lane ih =>
    have hlt : i < lane.length := Nat.lt_of_succ_lt_succ h
    rw [scrambleFrom, List.getD_cons_succ, List.getD_cons_succ]
    cases i with
    | zero => exact getD_scrambleFrom_zero _ (List.ne_nil_of_length_pos hlt)
    | succ i => rw [ih _ hlt, List.getD_cons_succ]

/-- The blocks at even and at odd places, by their places. -/
theorem deal_eq_map {r : Nat} {lane : List Block} (h : lane.length = 2 * r) :
    deal lane = ((List.range r).map fun i => lane.getD (2 * i) default,
      (List.range r).map fun i => lane.getD (2 * i + 1) default) := by
  induction r generalizing lane with
  | zero =>
    obtain rfl : lane = [] := List.length_eq_zero_iff.mp h
    rfl
  | succ r ih =>
    obtain ⟨x, lane, rfl⟩ := List.exists_cons_of_length_eq_add_one (n := 2 * r + 1) h
    obtain ⟨y, lane, rfl⟩ := List.exists_cons_of_length_eq_add_one (Nat.succ.inj h)
    have hlane : lane.length = 2 * r := Nat.succ.inj (Nat.succ.inj h)
    rw [deal, ih hlane, List.range_succ_eq_map, List.map_cons, List.map_cons, List.map_map,
      List.map_map]
    rfl

section Lane

variable {r : Nat} {lane : List Block}

/-- The last block of a lane. -/
theorem getLastD_eq_getD (h : lane.length = 2 * r) :
    lane.getLastD default = lane.getD (2 * r - 1) default := by
  rw [List.getLastD_eq_getLast?, List.getLast?_eq_getElem?, h, List.getD_eq_getElem?_getD]

/-- A block of a lane, by its place, has the bytes there. -/
theorem toBytes_getD (h : lane.length = 2 * r) {i : Nat} (hi : i < 2 * r) :
    (lane.getD i default).toBytes = Bytes.blockAt 64 (laneBytes lane) i := by
  rw [blockAt_laneBytes (h ▸ hi), List.getD_eq_getElem _ _ (h ▸ hi)]

/-- The scrambled blocks are those of the standard, at every place. -/
theorem toBytes_scrambleFrom (hr : 0 < r) (h : lane.length = 2 * r) {i : Nat} (hi : i < 2 * r) :
    ((scrambleFrom (lane.getLastD default) lane).getD i default).toBytes =
      linked r (laneBytes lane) i := by
  have hne : lane ≠ [] := List.ne_nil_of_length_pos (by omega)
  induction i with
  | zero =>
    rw [getD_scrambleFrom_zero _ hne, toBytes_scramble, Block.toBytes_xor, getLastD_eq_getD h,
      toBytes_getD h (by omega), toBytes_getD h hi, linked]
  | succ i ih =>
    rw [getD_scrambleFrom_succ _ (h ▸ hi), toBytes_scramble, Block.toBytes_xor, ih (by omega),
      toBytes_getD h hi, linked]

theorem length_mix (h : lane.length = 2 * r) : (mix lane).length = 2 * r := by
  rw [mix, deal_eq_map ((length_scrambleFrom _ lane).trans h)]
  simp only [List.length_append, List.length_map, List.length_range]
  omega

/-- **One mixing is that of the standard.** -/
theorem laneBytes_mix (hr : 0 < r) (h : lane.length = 2 * r) :
    laneBytes (mix lane) = standardMix r (laneBytes lane) := by
  have hplaces : ∀ place : Nat → Nat, (∀ i < r, place i < 2 * r) →
      laneBytes ((List.range r).map fun i =>
        (scrambleFrom (lane.getLastD default) lane).getD (place i) default) =
      (List.range r).flatMap fun i => linked r (laneBytes lane) (place i) := by
    intro place hplace
    rw [laneBytes_map]
    exact List.flatMap_congr fun i hi =>
      toBytes_scrambleFrom hr h (hplace i (List.mem_range.mp hi))
  rw [mix, deal_eq_map ((length_scrambleFrom _ lane).trans h), laneBytes_append,
    hplaces (2 * ·) fun i hi => by omega, hplaces (2 * · + 1) fun i hi => by omega, standardMix]

theorem length_mix_iterate (h : lane.length = 2 * r) (n : Nat) :
    (mix^[n] lane).length = 2 * r := by
  induction n with
  | zero => exact h
  | succ n ih => rw [Function.iterate_succ_apply', length_mix ih]

theorem laneBytes_mix_iterate (hr : 0 < r) (h : lane.length = 2 * r) (n : Nat) :
    laneBytes (mix^[n] lane) = (standardMix r)^[n] (laneBytes lane) := by
  induction n with
  | zero => rfl
  | succ n ih =>
    rw [Function.iterate_succ_apply', laneBytes_mix hr (length_mix_iterate h n), ih,
      Function.iterate_succ_apply']

/-! ## The table -/

/-- **The table holds the lane mixed no time, once, twice and so on**, behind what was in it. -/
theorem table_eq (rounds : Nat) (lane : List Block) (states : Array (List Block)) :
    table rounds lane states =
      (states ++ ((List.range rounds).map fun i => mix^[i] lane).toArray, mix^[rounds] lane) := by
  induction rounds generalizing lane states with
  | zero => simp [table]
  | succ rounds ih =>
    rw [table, ih, List.range_succ_eq_map, List.map_cons, List.map_map]
    simp only [Function.iterate_succ_apply, Function.iterate_zero_apply, Function.comp_def]
    congr 1
    rw [← Array.toList_inj]
    simp

theorem size_table (cost : Nat) (lane : List Block) : (table cost lane #[]).1.size = cost := by
  rw [table_eq]
  simp

/-- What stands at a place of the table. -/
theorem getElem?_table {cost j : Nat} (h : j < cost) (lane : List Block) :
    (table cost lane #[]).1[j]? = some (mix^[j] lane) := by
  rw [table_eq]
  simp [h]

/-! ## Picking a state -/

/-- The number of a block starts with its first word. -/
theorem toNat_toBytes (x : Block) : ∃ high, Bytes.toNat x.toBytes = x.w0.toNat + 2 ^ 32 * high := by
  have hfirst : Bytes.toNat (wordBytes x.w0) = x.w0.toNat := by
    have hlt : x.w0.toNat < 256 ^ 4 := x.w0.toNat_lt
    rw [wordBytes, Bytes.toNat_littleEndian, Nat.mod_eq_of_lt hlt]
  have happend := Bytes.toNat_append (wordBytes x.w0) (x.toList.tail.flatMap wordBytes)
  rw [hfirst, length_wordBytes] at happend
  exact ⟨_, happend⟩

/-- **A lane picks the state that the number of its last block says**: the low bits are enough, as
long as the number of states divides `2 ^ 32`. -/
theorem pick_mod (hr : 0 < r) (h : lane.length = 2 * r) {cost : Nat} (hcost : cost ∣ 2 ^ 32) :
    pick lane % cost = integerify r (laneBytes lane) % cost := by
  obtain ⟨high, hhigh⟩ := toNat_toBytes (lane.getLastD default)
  rw [integerify, ← toBytes_getD h (by omega), ← getLastD_eq_getD h, hhigh, pick, Nat.add_mod,
    Nat.mul_mod, Nat.mod_eq_zero_of_dvd hcost, Nat.zero_mul, Nat.zero_mod, Nat.add_zero,
    Nat.mod_mod]

/-- What a lane picks from the table is the state that its number says. -/
theorem getD_table_pick (hr : 0 < r) {cost : Nat} (hcost : cost ∣ 2 ^ 32) {x : List Block}
    (hx : x.length = 2 * r) :
    (table cost lane #[]).1.getD (pick x % (table cost lane #[]).1.size) [] =
      mix^[integerify r (laneBytes x) % cost] lane := by
  have hlt : pick x % cost < cost := Nat.mod_lt _ (Nat.pos_of_dvd_of_pos hcost (by decide))
  rw [size_table, Array.getD_eq_getD_getElem?, getElem?_table hlt, Option.getD_some,
    pick_mod hr hx hcost]

/-! ## The work on a lane -/

/-- The walk goes on as the standard does, from every state of a lane. -/
theorem laneBytes_walk (hr : 0 < r) {cost : Nat} (hcost : cost ∣ 2 ^ 32)
    (h : lane.length = 2 * r) (rounds : Nat) {x : List Block} (hx : x.length = 2 * r) :
    laneBytes (walk (table cost lane #[]).1 rounds x) =
      (standardStep r cost (laneBytes lane))^[rounds] (laneBytes x) := by
  induction rounds generalizing x with
  | zero => rfl
  | succ rounds ih =>
    set state := mix^[integerify r (laneBytes x) % cost] lane with hstate
    have hlen : state.length = x.length := (length_mix_iterate h _).trans hx.symm
    have hcombined : (List.zipWith Block.xor x state).length = 2 * r := by
      rw [List.length_zipWith, hlen, Nat.min_self, hx]
    have hbytes : laneBytes (mix (List.zipWith Block.xor x state)) =
        standardStep r cost (laneBytes lane) (laneBytes x) := by
      rw [laneBytes_mix hr hcombined, laneBytes_zipWith_xor hlen.symm, hstate,
        laneBytes_mix_iterate hr h, standardStep]
    rw [walk, getD_table_pick hr hcost hx, ← hstate, ih (length_mix hcombined), hbytes,
      Function.iterate_succ_apply]

/-- **The work on a lane is that of the standard**, as long as the number of states divides
`2 ^ 32`. -/
theorem work_eq_standardWork (hr : 0 < r) {cost : Nat} (hcost : cost ∣ 2 ^ 32) {data : Bytes}
    (hdata : data.length = 128 * r) : work cost data = standardWork r cost data := by
  have hblocks : Bytes.blocks 64 data = (List.range (2 * r)).map (Bytes.blockAt 64 data) :=
    Bytes.blocks_eq_map_blockAt (by decide) (by omega)
  have hlane : ((Bytes.blocks 64 data).map Block.ofBytes).length = 2 * r := by
    rw [hblocks, List.length_map, List.length_map, List.length_range]
  have hbytes : laneBytes ((Bytes.blocks 64 data).map .ofBytes) = data :=
    laneBytes_ofBytes ⟨2 * r, by omega⟩
  have hwalk := laneBytes_walk hr hcost hlane cost (length_mix_iterate hlane cost)
  rw [laneBytes_mix_iterate hr hlane, hbytes] at hwalk
  rw [standardWork, ← hwalk, work, table_eq]
  rfl

end Lane

/-- **The key is that of the standard**, as long as the number of states divides `2 ^ 32`. -/
theorem fill_eq_standard {cost r p : Nat} (hr : 0 < r) (hcost : cost ∣ 2 ^ 32)
    (password salt : Bytes) (length : Nat) :
    fill cost r p password salt length = standard r cost p password salt length := by
  have hlanes : (Pbkdf2.standard .sha256 password salt 1 (128 * r * p)).length = 128 * r * p := by
    rw [← Pbkdf2.fill_eq_standard Nat.one_pos, Pbkdf2.length_fill]
  have hwork : ∀ i ∈ List.range p,
      work cost (Bytes.blockAt (128 * r)
        (Pbkdf2.standard .sha256 password salt 1 (128 * r * p)) i) =
      standardWork r cost (Bytes.blockAt (128 * r)
        (Pbkdf2.standard .sha256 password salt 1 (128 * r * p)) i) := by
    intro i hi
    have hlt := List.mem_range.mp hi
    refine work_eq_standardWork hr hcost ?_
    rw [Bytes.length_blockAt (by rw [hlanes]; exact Nat.mul_le_mul_left _ hlt)]
  simp only [fill, standard, Pbkdf2.fill_eq_standard Nat.one_pos]
  rw [Bytes.blocks_eq_map_blockAt (by omega) hlanes, List.flatMap_map, List.flatMap_congr hwork]

end Scrypt

open Strongbox.Derivation (Positive Spec)

/-- **Every spec of memory-hard mixing that can run makes the key of the standard**, whatever the
password and the salt are. Its cost `N` is a power of two below `2 ^ 32`. So in whatever state a
lane is, the table has exactly `N` entries, the low bits of the first word of the last block are
the whole number of that block modulo `N`, and there the table has the lane mixed that often. -/
theorem Kdf.deriveKey_memoryHard {digest : Digest}
    {keyLength iterations blockSize parallelization : Positive} {kdf : Kdf}
    (h : (Spec.memoryHard digest keyLength iterations blockSize parallelization).kdf = .ok kdf)
    (password salt : Bytes) :
    let N := iterations.val
    let r := blockSize.val
    (∃ key, kdf.deriveKey password salt = .ok key ∧ key.bytes.length = keyLength.val ∧
      key.bytes =
        Scrypt.standard r N parallelization.val password salt keyLength.val) ∧
    (∃ k, 1 ≤ k ∧ k ≤ 31 ∧ N = 2 ^ k) ∧
    ∀ lane x : List Scrypt.Block, lane.length = 2 * r → x.length = 2 * r →
      let states := (Scrypt.table N lane #[]).1
      let j := Scrypt.integerify r (Scrypt.laneBytes x) % N
      states.size = N ∧ j < N ∧ Scrypt.pick x % states.size = j ∧
      Scrypt.pick x &&& (N - 1) = j ∧
      ∃ state, states[j]? = some state ∧
        Scrypt.laneBytes state = (Scrypt.standardMix r)^[j] (Scrypt.laneBytes lane) := by
  intro N r
  have hspec := Spec.spec_of_kdf h
  have hruns := kdf.runs
  rw [hspec] at hruns
  obtain ⟨rfl, hcost, -⟩ := Spec.obstacle?_memoryHard.mp hruns
  obtain ⟨k, hk, hpow⟩ : ∃ k, 1 ≤ k ∧ N = 2 ^ k := Derivation.isCost_iff.mp hcost
  -- the cost fits into 32 bits, and so divides 2 ^ 32
  have hk31 : k ≤ 31 := by
    have hlt : 2 ^ k < 2 ^ 32 := hpow ▸ iterations.lt
    have := (Nat.pow_lt_pow_iff_right (by decide)).mp hlt
    omega
  have hdvd : N ∣ 2 ^ 32 := hpow ▸ Nat.pow_dvd_pow 2 (by omega)
  have hr : 0 < r := blockSize.pos
  refine ⟨⟨⟨Scrypt.fill N r parallelization.val password salt keyLength.val⟩, ?_,
    Scrypt.length_fill .., Scrypt.fill_eq_standard hr hdvd password salt _⟩,
    ⟨k, hk, hk31, hpow⟩, ?_⟩
  · have hlength : kdf.keyLength = keyLength.val := by rw [Kdf.keyLength, hspec]; rfl
    rw [deriveKey, hlength, fill, hspec]
    simp only [if_neg (Nat.ne_of_gt keyLength.pos)]
    rfl
  · intro lane x hlane hx states j
    have hj : j < N := Nat.mod_lt _ iterations.pos
    have hsize : states.size = N := Scrypt.size_table N lane
    have hpick : Scrypt.pick x % N = j := Scrypt.pick_mod hr hx hdvd
    refine ⟨hsize, hj, hsize ▸ hpick, ?_, _, Scrypt.getElem?_table hj lane,
      Scrypt.laneBytes_mix_iterate hr hlane j⟩
    rw [← hpick, hpow, Nat.and_two_pow_sub_one_eq_mod]

/-- Sixteen states of two blocks, for an empty password and an empty salt; a lane whose last block
starts with the number 35 picks state number three. -/
theorem Kdf.deriveKey_memoryHard_sixteen :
    let spec : Spec := .memoryHard .sha256 ⟨64, by decide, by decide⟩ ⟨16, by decide, by decide⟩
      ⟨1, by decide, by decide⟩ ⟨1, by decide, by decide⟩
    let x : List Scrypt.Block := [default, { (default : Scrypt.Block) with w0 := 35 }]
    ∃ kdf key, spec.kdf = .ok kdf ∧ kdf.deriveKey [] [] = .ok key ∧ key.bytes.length = 64 ∧
      key.bytes = Scrypt.standard 1 16 1 [] [] 64 ∧
      ∃ state, (Scrypt.table 16 x #[]).1[3]? = some state ∧
        Scrypt.laneBytes state = (Scrypt.standardMix 1)^[3] (Scrypt.laneBytes x) := by
  intro spec x
  have hruns : spec.kdf = .ok ⟨spec, rfl⟩ := rfl
  obtain ⟨⟨key, hderive, hlength, hkey⟩, -, hlanes⟩ := deriveKey_memoryHard hruns [] []
  obtain ⟨-, -, -, -, state, hstate, hbytes⟩ := hlanes x x rfl rfl
  have hpicked : Scrypt.integerify 1 (Scrypt.laneBytes x) % 16 = 3 := by decide +kernel
  rw [hpicked] at hstate hbytes
  exact ⟨_, key, hruns, hderive, hlength, hkey, state, hstate, hbytes⟩

end Strongbox
