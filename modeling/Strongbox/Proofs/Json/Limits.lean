import Strongbox.Proofs.Json.Tree

/-!
# Limits of values

A walk that looks at everything in a value has three things to find fault with: a string that is no
text, a number that is too large, and brackets that nest too deep. If all strings are texts, it ends
at the first of the other two, and goes over every value that has neither.

## Main definitions

* `Tree.depth`, `Tree.numbers`, `Tree.strings`: the brackets that are open at once in a value, and
  the numbers, keys and strings in it
* `Json.TooLarge`: a number beyond the range of floating-point numbers
* `Json.Limited`: what a walk makes of a depth and of numbers

## Main results

* `Json.number_cases`: a number is kept unless it is too large
* `Written.check_strict`: what a walk that looks at everything makes of a value
-/

namespace Strongbox.Json

/-! ## What is in a value -/

mutual

/-- How many brackets are open at once in a value. -/
def Tree.depth : Tree → Nat
  | .word _ => 0
  | .string _ => 0
  | .number _ => 0
  | .bracketed _ items => depthOfItems items + 1

/-- How many brackets are open at once in the elements or members of an array or object. -/
def depthOfItems : List (Bytes × Tree) → Nat
  | [] => 0
  | (_, value) :: items => max value.depth (depthOfItems items)

end

mutual

/-- The numbers in a value. -/
def Tree.numbers : Tree → List Bytes
  | .word _ => []
  | .string _ => []
  | .number bytes => [bytes]
  | .bracketed _ items => numbersOfItems items

/-- The numbers in the elements or members of an array or object. -/
def numbersOfItems : List (Bytes × Tree) → List Bytes
  | [] => []
  | (_, value) :: items => value.numbers ++ numbersOfItems items

end

/-- The keys of an object; an array has none. -/
def Bracket.keys : Bracket → Bytes → List Bytes
  | .square, _ => []
  | .curly, key => [key]

mutual

/-- The strings and keys in a value, without their quotes. -/
def Tree.strings : Tree → List Bytes
  | .word _ => []
  | .string raw => [raw]
  | .number _ => []
  | .bracketed bracket items => stringsOfItems bracket items

/-- The strings and keys in the elements or members of an array or object. -/
def stringsOfItems (bracket : Bracket) : List (Bytes × Tree) → List Bytes
  | [] => []
  | (key, value) :: items => bracket.keys key ++ value.strings ++ stringsOfItems bracket items

end

/-- All strings are texts: their bytes are characters, and the escapes of surrogates are paired. -/
def AreTexts (strings : List Bytes) : Prop := ∀ raw ∈ strings, ∃ cs, SpellsText cs raw

/-- A number beyond the range of floating-point numbers. -/
def TooLarge (bytes : Bytes) : Prop := number bytes = .error .numberOutOfRange

/-! ## Numbers -/

theorem scale_error {x : Float} {exponent : Int} {fault : Fault}
    (h : scale x exponent = .error fault) : fault = .numberOutOfRange := by
  fun_induction scale x exponent with
  | case1 => cases h
  | case2 =>
    cases h
    rfl
  | case3 =>
    cases h
    rfl
  | case4 => cases h
  | case5 => cases h
  | case6 _ _ _ _ _ _ ih => exact ih h
  | case7 => cases h

theorem float_error {n : Numeral} {fault : Fault} (h : n.float = .error fault) :
    fault = .numberOutOfRange := by
  unfold Numeral.float at h
  dsimp only at h
  split at h
  · rcases bind_eq_error_iff.mp h with h | ⟨_, -, h⟩
    · exact scale_error h
    · cases h
  split at h
  · cases h
  · cases h
    rfl

theorem value_error {n : Numeral} {fault : Fault} (h : n.value = .error fault) :
    fault = .numberOutOfRange := by
  unfold Numeral.value at h
  dsimp only at h
  split at h
  · split at h
    · cases h
    split at h
    · cases h
    · exact float_error (map_eq_error_iff.mp h)
  · exact float_error (map_eq_error_iff.mp h)

/-- **A number is kept unless it is too large.** -/
theorem number_cases {bytes : Bytes} (h : IsNumber bytes) :
    TooLarge bytes ∨ ∃ value, number bytes = .ok (value, []) := by
  obtain ⟨n, hread⟩ := exists_numeral .endInValue h
  have halone := hread [] (Blank.closes .nil)
  rw [List.append_nil] at halone
  have hnumber : number bytes = n.value.map fun value => (value, []) := by
    simp only [number, halone, bind, Except.bind]
    cases n.value <;> rfl
  rw [TooLarge, hnumber]
  cases hvalue : n.value with
  | error fault =>
    rw [value_error hvalue]
    exact .inl rfl
  | ok value => exact .inr ⟨value, rfl⟩

/-! ## Walks that look at everything -/

/-- What a walk makes of brackets that nest so deep and of numbers: it goes over them if there is
room for the brackets and no number is too large, and it tells one of the two faults if not. -/
inductive Limited (room depth : Nat) (numbers : List Bytes) : Except Fault Unit → Prop where
  | within (hdepth : depth ≤ room) (hnumbers : ∀ bytes ∈ numbers, ¬TooLarge bytes) :
    Limited room depth numbers (.ok ())
  | tooDeep (h : room < depth) : Limited room depth numbers (.error .recursionLimit)
  | tooLarge {bytes : Bytes} (hmem : bytes ∈ numbers) (h : TooLarge bytes) :
    Limited room depth numbers (.error .numberOutOfRange)

/-- One walk after the other. -/
theorem Limited.append {room depth depth' : Nat} {numbers numbers' : List Bytes}
    {outcome outcome' : Except Fault Unit} (h : Limited room depth numbers outcome)
    (h' : Limited room depth' numbers' outcome') :
    Limited room (max depth depth') (numbers ++ numbers') (outcome >>= fun _ => outcome') := by
  cases h with
  | tooDeep h => exact .tooDeep (Nat.lt_of_lt_of_le h (Nat.le_max_left ..))
  | tooLarge hmem h => exact .tooLarge (List.mem_append_left _ hmem) h
  | within hdepth hnumbers =>
    cases h' with
    | within hdepth' hnumbers' =>
      exact .within (Nat.max_le.mpr ⟨hdepth, hdepth'⟩)
        (List.forall_mem_append.mpr ⟨hnumbers, hnumbers'⟩)
    | tooDeep h' => exact .tooDeep (Nat.lt_of_lt_of_le h' (Nat.le_max_right ..))
    | tooLarge hmem h' => exact .tooLarge (List.mem_append_right _ hmem) h'

variable {source : Source} {room : Nat}

/-- A string that is a text is walked over. -/
theorem text_of_spellsText {cs : List Char} {raw : Bytes} (h : SpellsText cs raw) :
    (Care.strict source room).text (raw ++ [quote]) = .ok [] := by
  have hspells : SpellsText (String.ofList cs).toList raw := by rwa [String.toList_ofList]
  rw [Care.text, text_of_spells hspells]
  rfl

theorem checkKey_of_areTexts {bracket : Bracket} {key : Bytes} (h : AreTexts (bracket.keys key)) :
    bracket.checkKey (.strict source room) key = .ok () := by
  cases bracket with
  | square => rfl
  | curly =>
    obtain ⟨cs, hcs⟩ := h key List.mem_cons_self
    rw [Bracket.checkKey, text_of_spellsText hcs]
    rfl

mutual

/-- **A walk that looks at everything** in a value whose strings are texts. -/
theorem Written.check_strict : ∀ {tree : Tree} {bytes : Bytes}, Written tree bytes →
    AreTexts tree.strings → ∀ {around : List Bracket}, around.length ≤ room →
    Limited room (around.length + tree.depth) tree.numbers (tree.check (.strict source room) around)
  | _, _, .word _, _, around, hroom => .within hroom (List.forall_mem_nil _)
  | _, _, @Written.string raw _, htexts, around, hroom => by
    obtain ⟨cs, hcs⟩ := htexts raw List.mem_cons_self
    rw [Tree.check, text_of_spellsText hcs]
    exact .within hroom (List.forall_mem_nil _)
  | _, _, @Written.number bytes h, _, around, hroom => by
    rw [Tree.check, Care.number]
    rcases number_cases h with hlarge | ⟨value, hvalue⟩
    · have herror : number bytes = .error .numberOutOfRange := hlarge
      rw [herror]
      exact .tooLarge List.mem_cons_self hlarge
    · rw [hvalue]
      refine .within hroom (List.forall_mem_singleton.mpr fun hlarge => ?_)
      cases hlarge.symm.trans hvalue
  | _, _, @Written.bracketed bracket items _ h, htexts, around, hroom => by
    rw [Tree.check, Tree.depth, Tree.numbers]
    by_cases hfull : (Care.strict source room).isFull around = true
    · rw [if_pos hfull]
      have hle : room ≤ around.length := of_decide_eq_true hfull
      exact .tooDeep (by omega)
    · rw [if_neg hfull]
      have hlt : ¬room ≤ around.length := fun hle => hfull (decide_eq_true hle)
      exact h.checkItems_strict htexts (Nat.lt_of_not_le hlt)

theorem WrittenItems.checkItems_strict : ∀ {bracket : Bracket} {first : Bool}
    {items : List (Bytes × Tree)} {bytes : Bytes}, WrittenItems bracket first items bytes →
    AreTexts (stringsOfItems bracket items) → ∀ {around : List Bracket}, around.length < room →
    Limited room (around.length + (depthOfItems items + 1)) (numbersOfItems items)
      (checkItems (.strict source room) bracket around items)
  | _, _, _, _, .nil _, _, around, hroom => .within hroom (List.forall_mem_nil _)
  | bracket, _, _, _, @WrittenItems.cons _ _ key _ _ _ value items _ hvalue hrest, htexts, around,
      hroom => by
    obtain ⟨hfirst, hitems⟩ := List.forall_mem_append.mp htexts
    obtain ⟨hkey, hstrings⟩ := List.forall_mem_append.mp hfirst
    have hlength : (bracket :: around).length ≤ room := hroom
    have hinner := hvalue.check_strict hstrings hlength
    have houter := hrest.checkItems_strict hitems hroom
    have hdepth : around.length + (depthOfItems ((key, value) :: items) + 1) =
        max ((bracket :: around).length + value.depth)
          (around.length + (depthOfItems items + 1)) := by
      rw [depthOfItems, List.length_cons]
      omega
    rw [checkItems, checkKey_of_areTexts hkey, hdepth]
    exact hinner.append houter

end

end Strongbox.Json
