import Strongbox.Bytes
/-!
# Random bytes

A source of random bytes is an endless sequence of bytes with the number of those already drawn.

## Main definitions

* `Random`: a source of random bytes
* `Random.draw`: the next bytes
* `Random.cycle`: a source that repeats a byte string

## Main results

* `Random.length_draw`: as many bytes are drawn as are asked for
-/

namespace Strongbox

/-- A source of random bytes. -/
structure Random where
  /-- The bytes, in the order in which they are drawn. -/
  stream : Nat → UInt8
  /-- How many have been drawn. -/
  drawn : Nat

namespace Random

/-- A source of which nothing has been drawn. -/
def ofStream (stream : Nat → UInt8) : Random := ⟨stream, 0⟩

/-- A source that repeats a byte string; of the empty one it repeats zero. -/
def cycle (pattern : Bytes) : Random :=
  let bytes := pattern.toArray
  ofStream fun i => bytes.getD (i % bytes.size) 0

/-- The next `n` bytes, and the source after they are drawn. -/
def draw (source : Random) (n : Nat) : Bytes × Random :=
  ((List.range n).map fun i => source.stream (source.drawn + i),
    ⟨source.stream, source.drawn + n⟩)

@[simp] theorem length_draw (source : Random) (n : Nat) : (source.draw n).1.length = n := by
  simp [draw]

@[simp] theorem stream_draw (source : Random) (n : Nat) :
    (source.draw n).2.stream = source.stream := rfl

@[simp] theorem drawn_draw (source : Random) (n : Nat) :
    (source.draw n).2.drawn = source.drawn + n := rfl

end Random

end Strongbox
