import Strongbox.Bytes
/-!
# UTF-8

Texts as byte strings. Reading goes byte by byte: between characters, or inside one with a number
of continuation bytes still owed and bounds on the next of them. A byte that no text can hold
there is a fault, which says where the character started and how many of its bytes were good.

## Main definitions

* `Utf8.encode`: the bytes of a string
* `Utf8.decode`: the string of a byte string, or its first fault
* `Utf8.decodeTrusted`: the characters of bytes that are known to be a text
* `Utf8.Fault`: why a byte string is no text

## Main results

* `Utf8.encode_append`: encoding is a concatenation
-/

namespace Strongbox.Text.Utf8

/-- The bytes of a text, character after character. -/
def encodeChars (cs : List Char) : Bytes := cs.flatMap String.utf8EncodeChar

/-- The bytes of a string. -/
def encode (s : String) : Bytes := encodeChars s.toList

@[simp] theorem encodeChars_nil : encodeChars [] = [] := rfl

@[simp] theorem encodeChars_cons (c : Char) (cs : List Char) :
    encodeChars (c :: cs) = String.utf8EncodeChar c ++ encodeChars cs := by
  simp [encodeChars]

@[simp] theorem encodeChars_append (cs ds : List Char) :
    encodeChars (cs ++ ds) = encodeChars cs ++ encodeChars ds := by
  simp [encodeChars]

@[simp] theorem encode_append (s t : String) : encode (s ++ t) = encode s ++ encode t := by
  simp [encode]

/-- Why a byte string is no text. -/
inductive Fault where
  /-- The character that starts at `start` has only `length` good bytes before a wrong one; a
  wrong first byte counts as one. -/
  | malformed (start length : Nat)
  /-- The bytes end inside the character that starts at `start`. -/
  | unfinished (start : Nat)
deriving DecidableEq, Repr

/-- The fault in words. -/
def Fault.message : Fault → String
  | .malformed start length => s!"invalid utf-8 sequence of {length} bytes from index {start}"
  | .unfinished start => s!"incomplete utf-8 byte sequence from index {start}"

/-- Where a reader stands: between characters, or inside one. -/
inductive State where
  /-- Between characters. -/
  | between
  /-- Inside a character of which `seen` bytes were read and `owed + 1` are still to come, the
  next between `low` and `high`; its leading bits are `code`. -/
  | inside (seen owed : Nat) (low high : UInt8) (code : Nat)
deriving DecidableEq, Repr

/-- The state after the first byte of a character that takes more than one. -/
def State.afterLead (b : UInt8) : Option State :=
  if 0xC2 ≤ b && b ≤ 0xDF then some (.inside 1 0 0x80 0xBF (b.toNat - 0xC0))
  else if b == 0xE0 then some (.inside 1 1 0xA0 0xBF 0)
  else if b == 0xED then some (.inside 1 1 0x80 0x9F 0xD)
  else if 0xE1 ≤ b && b ≤ 0xEF then some (.inside 1 1 0x80 0xBF (b.toNat - 0xE0))
  else if b == 0xF0 then some (.inside 1 2 0x90 0xBF 0)
  else if 0xF1 ≤ b && b ≤ 0xF3 then some (.inside 1 2 0x80 0xBF (b.toNat - 0xF0))
  else if b == 0xF4 then some (.inside 1 2 0x80 0x8F 4)
  else none

/-- Reads on from a state; `start` is where the character being read began. -/
def decodeFrom : State → Nat → Bytes → Except Fault (List Char)
  | .between, _, [] => .ok []
  | .between, start, b :: rest =>
    if b < 0x80 then (decodeFrom .between (start + 1) rest).map (Char.ofNat b.toNat :: ·)
    else match State.afterLead b with
      | some state => decodeFrom state start rest
      | none => .error (.malformed start 1)
  | .inside .., start, [] => .error (.unfinished start)
  | .inside seen owed low high code, start, b :: rest =>
    if low ≤ b && b ≤ high then
      let code := 64 * code + (b.toNat - 0x80)
      match owed with
      | 0 => (decodeFrom .between (start + seen + 1) rest).map (Char.ofNat code :: ·)
      | owed + 1 => decodeFrom (.inside (seen + 1) owed 0x80 0xBF code) start rest
    else .error (.malformed start seen)

/-- The characters of a byte string, or its first fault. -/
def decodeChars (data : Bytes) : Except Fault (List Char) := decodeFrom .between 0 data

/-- The string of a byte string, or its first fault. -/
def decode (data : Bytes) : Except Fault String := (decodeChars data).map String.ofList

/-- The six payload bits of a continuation byte. -/
def payload (b : UInt8) : Nat := b.toNat % 64

/-- The characters of bytes that are known to be a text: the first byte of a character tells its
length, and nothing is checked. -/
def decodeTrusted : Bytes → List Char
  | [] => []
  | a :: rest =>
    if a < 0x80 then Char.ofNat a.toNat :: decodeTrusted rest
    else match rest with
      | [] => []
      | b :: rest =>
        if a < 0xE0 then Char.ofNat (64 * (a.toNat % 32) + payload b) :: decodeTrusted rest
        else match rest with
          | [] => []
          | c :: rest =>
            if a < 0xF0 then
              Char.ofNat (4096 * (a.toNat % 16) + 64 * payload b + payload c) ::
                decodeTrusted rest
            else match rest with
              | [] => []
              | d :: rest =>
                Char.ofNat (262144 * (a.toNat % 8) + 4096 * payload b + 64 * payload c +
                  payload d) :: decodeTrusted rest

end Strongbox.Text.Utf8
