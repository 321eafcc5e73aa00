import Strongbox.Proofs.Json.Walk

/-!
# Values without their white space

A value of the grammar is a tree, of which its bytes are one layout. What a walk makes of a value
depends on nothing but the tree: it checks the strings and the numbers in their order and counts the
brackets, and goes on behind the value if there is no fault. So it finds the end of every value, no
matter how closely it looks, and where a value ends does not depend on how it is read.

## Main definitions

* `Json.Tree`: a value without its white space
* `Json.Written`, `Json.WrittenItems`: the layouts of a tree, and of what is left of an array or
  object
* `Tree.check`: what a walk makes of a value

## Main results

* `Json.text_append`: a string is judged without what comes after it
* `Written.walkValue_append`: a walk over a value, inside of any brackets
* `IsValue.walk_append`: every value is walked over
* `IsValue.rest_unique`: where a value ends does not depend on how it is read
-/

namespace Strongbox.Json

/-! ## Strings -/

/-- A reader of escapes refuses what is left of the contents of a string or leaves contents, and
which of the two does not depend on what comes after the string. -/
def StaysInside (read : Reader Char) (raw : Bytes) : Prop :=
  (∃ fault, ∀ s, read (raw ++ quote :: s) = .error fault) ∨
    ∃ c more, IsContents more ∧ more.length ≤ raw.length ∧
      ∀ s, read (raw ++ quote :: s) = .ok (c, more ++ quote :: s)

theorem staysInside_unitEscape {unit : Nat} {bytes more : Bytes} (h : SpellsUnit unit bytes)
    (hmore : IsContents more) : StaysInside unitEscape (bytes ++ more) := by
  have hunit {unit : Nat} {bytes : Bytes} (h : SpellsUnit unit bytes) (s : Bytes) :
      hexUnit (bytes ++ s) = .ok (unit, s) := hexUnit_eq_ok_iff.mpr ⟨bytes, h, rfl⟩
  simp only [StaysInside, List.append_assoc, unitEscape, hunit h, bind, Except.bind]
  by_cases htrailing : isTrailing unit = true
  · exact .inl ⟨.loneSurrogate, fun _ => if_pos htrailing⟩
  by_cases hleading : isLeading unit = true
  · simp only [if_neg htrailing, if_pos hleading]
    cases hmore with
    | nil => exact .inl ⟨.unexpectedEndOfEscape, fun _ => rfl⟩
    | plain hplain _ =>
      refine .inl ⟨.unexpectedEndOfEscape, fun s => ?_⟩
      rw [List.cons_append, pairByte, if_neg hplain.2.1]
    | @escape _ rest hescape hrest =>
      cases hescape with
      | letter hletter =>
        refine .inl ⟨.unexpectedEndOfEscape, fun s => ?_⟩
        simp only [List.cons_append, List.nil_append, pairByte, if_true]
        rw [if_neg (ne_of_mem_letters hletter)]
      | @unit second bytes' h' =>
        simp only [List.cons_append, List.append_assoc, pairByte, if_true, hunit h']
        by_cases hsecond : isTrailing second = true
        · refine .inr ⟨ofPair unit second, rest, hrest, ?_, fun s => if_pos hsecond⟩
          simp only [List.length_cons, List.length_append]
          omega
        · exact .inl ⟨.loneSurrogate, fun s => if_neg hsecond⟩
  · refine .inr ⟨Char.ofNat unit, more, hmore, ?_, fun s => ?_⟩
    · rw [List.length_append]
      exact Nat.le_add_left ..
    · rw [if_neg htrailing, if_neg hleading]

theorem staysInside_escape {escaped more : Bytes} (h : IsEscape (backslash :: escaped))
    (hmore : IsContents more) : StaysInside escape (escaped ++ more) := by
  cases h with
  | @letter b c h =>
    refine .inr ⟨c, more, hmore, Nat.le_add_right .., fun s => ?_⟩
    rw [List.singleton_append, List.cons_append, escape, if_neg (ne_of_mem_letters h),
      shortEscape?_eq_some_iff.mpr h]
  | @unit unit bytes h =>
    have hescape (s : Bytes) : escape (0x75 :: (bytes ++ more) ++ quote :: s) =
        unitEscape (bytes ++ more ++ quote :: s) := by
      rw [List.cons_append, escape, if_pos rfl]
    rcases staysInside_unitEscape h hmore with ⟨fault, hfault⟩ | ⟨c, more', hmore', hlen, hread⟩
    · exact .inl ⟨fault, fun s => (hescape s).trans (hfault s)⟩
    · exact .inr ⟨c, more', hmore', Nat.le_succ_of_le hlen, fun s => (hescape s).trans (hread s)⟩

theorem contents_escape_error {s : Bytes} {fault : Fault} (h : escape s = .error fault) :
    contents (backslash :: s) = .error fault := by
  rw [contents, if_neg (by decide), if_pos rfl]
  split
  · next h' => exact congrArg Except.error (Except.error.inj (h'.symm.trans h))
  · next h' => cases h.symm.trans h'

/-- The contents of a string are judged without what comes after it. -/
theorem exists_contents {raw : Bytes} (h : IsContents raw) :
    ∃ outcome : Except Fault Bytes, ∀ rest,
      contents (raw ++ quote :: rest) = outcome.map fun bytes => (bytes, rest) := by
  -- one escape may take two of the grammar, so that the cases are those of the reader
  induction hn : raw.length using Nat.strongRecOn generalizing raw with
  | ind n ih =>
    subst hn
    cases h with
    | nil =>
      refine ⟨.ok [], fun rest => ?_⟩
      rw [List.nil_append, contents, if_pos rfl]
      rfl
    | @plain b more hplain hmore =>
      obtain ⟨outcome, houtcome⟩ := ih more.length (Nat.lt_succ_self _) hmore rfl
      refine ⟨outcome.map (b :: ·), fun rest => ?_⟩
      rw [List.cons_append, contents_plain hplain, houtcome]
      cases outcome <;> rfl
    | @escape _ more hescape hmore =>
      obtain ⟨escaped, rfl⟩ := hescape.exists_cons
      rcases staysInside_escape hescape hmore with ⟨fault, hfault⟩ | ⟨c, more', hmore', hlen, hread⟩
      · exact ⟨.error fault, fun rest => contents_escape_error (hfault rest)⟩
      · obtain ⟨outcome, houtcome⟩ := ih more'.length (Nat.lt_succ_of_le hlen) hmore' rfl
        refine ⟨outcome.map (String.utf8EncodeChar c ++ ·), fun rest => ?_⟩
        rw [List.cons_append, List.cons_append, contents_escape (hread rest), houtcome]
        cases outcome <;> rfl

/-- A string is judged without what comes after it. -/
theorem text_append (source : Source) {raw : Bytes} (h : IsContents raw) (rest : Bytes) :
    text source (raw ++ quote :: rest) =
      (text source (raw ++ [quote])).map fun p => (p.1, rest) := by
  obtain ⟨outcome, houtcome⟩ := exists_contents h
  rw [text, text, houtcome, houtcome]
  cases outcome with
  | error fault => rfl
  | ok bytes =>
    simp only [Except.map, bind, Except.bind]
    cases source with
    | text => rfl
    | bytes => cases Text.Utf8.decode bytes <;> rfl

/-- A number is judged without what comes after it. -/
theorem number_append {bytes rest : Bytes} (h : IsNumber bytes) (hrest : Closes rest) :
    number (bytes ++ rest) = (number bytes).map fun p => (p.1, rest) := by
  obtain ⟨n, hread⟩ := exists_numeral .endInValue h
  have halone := hread [] (Blank.closes .nil)
  rw [List.append_nil] at halone
  simp only [number, hread rest hrest, halone, bind, Except.bind]
  cases n.value <;> rfl

namespace Care

theorem text_append (care : Care) {raw : Bytes} (h : IsContents raw) (rest : Bytes) :
    care.text (raw ++ quote :: rest) = (care.text (raw ++ [quote])).map fun _ => rest := by
  cases care with
  | strict source room =>
    rw [text, text, Json.text_append source h]
    cases Json.text source (raw ++ [quote]) <;> rfl
  | lax =>
    have hskip (rest : Bytes) : skipText (raw ++ quote :: rest) = .ok rest :=
      skipText_eq_ok_iff.mpr ⟨raw, h, rfl⟩
    rw [text, text, hskip, hskip]
    rfl

theorem number_append (care : Care) {bytes rest : Bytes} (h : IsNumber bytes)
    (hrest : Closes rest) :
    care.number (bytes ++ rest) = (care.number bytes).map fun _ => rest := by
  cases care with
  | strict source room =>
    rw [number, number, Json.number_append h hrest]
    cases Json.number bytes <;> rfl
  | lax =>
    obtain ⟨n, hread⟩ := exists_numeral .invalidNumber h
    have halone := hread [] (Blank.closes .nil)
    rw [List.append_nil] at halone
    rw [number, number, hread rest hrest, halone]
    rfl

end Care

/-! ## Trees -/

/-- A value without its white space: strings, keys and numbers as they are written, without their
quotes. An element of an array has the empty key. -/
inductive Tree where
  | word (bytes : Bytes)
  | string (raw : Bytes)
  | number (bytes : Bytes)
  | bracketed (bracket : Bracket) (items : List (Bytes × Tree))

mutual

/-- The layouts of a tree. -/
inductive Written : Tree → Bytes → Prop where
  | word {bytes : Bytes} (h : bytes ∈ words) : Written (.word bytes) bytes
  | string {raw : Bytes} (h : IsContents raw) : Written (.string raw) (quote :: (raw ++ [quote]))
  | number {bytes : Bytes} (h : IsNumber bytes) : Written (.number bytes) bytes
  | bracketed {bracket : Bracket} {items : List (Bytes × Tree)} {rest : Bytes}
    (h : WrittenItems bracket true items rest) :
    Written (.bracketed bracket items) (bracket.opening :: rest)

/-- The layouts of what is left of an array or object, up to its end. -/
inductive WrittenItems : Bracket → (first : Bool) → List (Bytes × Tree) → Bytes → Prop where
  | nil {bracket : Bracket} {first : Bool} {space : Bytes} (h : Blank space) :
    WrittenItems bracket first [] (space ++ [bracket.close])
  | cons {bracket : Bracket} {first : Bool} {key front bytes rest : Bytes} {value : Tree}
    {items : List (Bytes × Tree)} (hfront : Fronts bracket first key front)
    (hvalue : Written value bytes) (hrest : WrittenItems bracket false items rest) :
    WrittenItems bracket first ((key, value) :: items) (front ++ bytes ++ rest)

end

mutual

/-- A layout of a tree is a value. -/
theorem Written.isValue : ∀ {tree : Tree} {bytes : Bytes}, Written tree bytes → IsValue bytes
  | _, _, .word h => .word h
  | _, _, .string h => .string h
  | _, _, .number h => .number h
  | _, _, .bracketed h => by
    obtain ⟨items, hitems⟩ := h.exists_isItems
    exact .bracketed hitems

theorem WrittenItems.exists_isItems : ∀ {bracket : Bracket} {first : Bool}
    {items : List (Bytes × Tree)} {bytes : Bytes}, WrittenItems bracket first items bytes →
    ∃ items, IsItems bracket first items bytes
  | _, _, _, _, .nil h => ⟨[], .nil h⟩
  | _, _, _, _, .cons hfront hvalue hrest => by
    obtain ⟨items, hitems⟩ := hrest.exists_isItems
    exact ⟨_, .cons hfront hvalue.isValue hitems⟩

end

mutual

/-- Every value is a layout of a tree. -/
theorem IsValue.exists_written : ∀ {value : Bytes}, IsValue value → ∃ tree, Written tree value
  | _, .word h => ⟨_, .word h⟩
  | _, .string h => ⟨_, .string h⟩
  | _, .number h => ⟨_, .number h⟩
  | _, .bracketed h => by
    obtain ⟨items, hitems⟩ := h.exists_writtenItems
    exact ⟨_, .bracketed hitems⟩

theorem IsItems.exists_writtenItems : ∀ {bracket : Bracket} {first : Bool}
    {items : List (Bytes × Bytes)} {bytes : Bytes}, IsItems bracket first items bytes →
    ∃ items, WrittenItems bracket first items bytes
  | _, _, _, _, .nil h => ⟨[], .nil h⟩
  | _, _, _, _, .cons hfront hvalue hrest => by
    obtain ⟨tree, htree⟩ := hvalue.exists_written
    obtain ⟨items, hitems⟩ := hrest.exists_writtenItems
    exact ⟨_, .cons hfront htree hitems⟩

end

theorem WrittenItems.closes {bracket : Bracket} {items : List (Bytes × Tree)} {bytes : Bytes}
    (h : WrittenItems bracket false items bytes) (s : Bytes) : Closes (bytes ++ s) := by
  obtain ⟨_, hitems⟩ := h.exists_isItems
  exact hitems.closes s

theorem WrittenItems.length_pos {bracket : Bracket} {first : Bool} {items : List (Bytes × Tree)}
    {bytes : Bytes} (h : WrittenItems bracket first items bytes) : 0 < bytes.length := by
  obtain ⟨_, hitems⟩ := h.exists_isItems
  exact hitems.length_pos

/-! ## Checks -/

/-- What a walk makes of the key of a member; an element of an array has none. -/
def Bracket.checkKey (care : Care) : Bracket → Bytes → Except Fault Unit
  | .square, _ => .ok ()
  | .curly, key => (care.text (key ++ [quote])).map fun _ => ()

mutual

/-- What a walk makes of a value, inside of the brackets around it. -/
def Tree.check (care : Care) (around : List Bracket) : Tree → Except Fault Unit
  | .word _ => .ok ()
  | .string raw => (care.text (raw ++ [quote])).map fun _ => ()
  | .number bytes => (care.number bytes).map fun _ => ()
  | .bracketed bracket items =>
    if care.isFull around then .error .recursionLimit else checkItems care bracket around items

/-- What a walk makes of the elements or members of an array or object, one after the other. -/
def checkItems (care : Care) (bracket : Bracket) (around : List Bracket) :
    List (Bytes × Tree) → Except Fault Unit
  | [] => .ok ()
  | (key, value) :: items => do
    bracket.checkKey care key
    value.check care (bracket :: around)
    checkItems care bracket around items

end

mutual

/-- A walk that only looks at the shape of a value has nothing against it. -/
theorem Written.check_lax : ∀ {tree : Tree} {bytes : Bytes}, Written tree bytes →
    ∀ around, tree.check .lax around = .ok ()
  | _, _, .word _, _ => rfl
  | _, _, @Written.string raw h, _ => by
    have hskip : skipText (raw ++ [quote]) = .ok [] := skipText_eq_ok_iff.mpr ⟨raw, h, rfl⟩
    rw [Tree.check, Care.text, hskip]
    rfl
  | _, _, @Written.number bytes h, _ => by
    obtain ⟨n, hread⟩ := exists_numeral .invalidNumber h
    have halone := hread [] (Blank.closes .nil)
    rw [List.append_nil] at halone
    rw [Tree.check, Care.number, halone]
    rfl
  | _, _, .bracketed h, around => by
    rw [Tree.check, Care.isFull, if_neg Bool.false_ne_true, h.checkItems_lax around]

theorem WrittenItems.checkItems_lax : ∀ {bracket : Bracket} {first : Bool}
    {items : List (Bytes × Tree)} {bytes : Bytes}, WrittenItems bracket first items bytes →
    ∀ around, checkItems .lax bracket around items = .ok ()
  | _, _, _, _, .nil _, _ => rfl
  | _, _, _, _, @WrittenItems.cons _ _ key _ _ _ _ _ hfront hvalue hrest, around => by
    rw [checkItems, hvalue.check_lax, hrest.checkItems_lax]
    cases hfront with
    | square => rfl
    | curly _ hkey =>
      have hskip : skipText (key ++ [quote]) = .ok [] := skipText_eq_ok_iff.mpr ⟨key, hkey, rfl⟩
      rw [Bracket.checkKey, Care.text, hskip]
      rfl

end

/-! ## Steps of a walk -/

theorem word_append (due rest : Bytes) : word due (due ++ rest) = .ok rest := by
  induction due with
  | nil => rfl
  | cons b due ih => rw [List.cons_append, word, if_pos rfl, ih]

section

variable {care : Care} {around : List Bracket} {bracket : Bracket} {s t : Bytes}

theorem walkValue_of_end (hskip : skipSpace s = []) :
    walkValue care around s = .error .endInValue := by
  rw [walkValue]
  split
  · rfl
  · next h => cases hskip.symm.trans h

theorem walkValue_of_scalar {b : UInt8} (hskip : skipSpace s = b :: t)
    (hnone : Bracket.ofByte? b = none) :
    walkValue care around s = care.scalar b t >>= walkRest care around := by
  rw [walkValue]
  split
  · next h => cases hskip.symm.trans h
  next h =>
  obtain ⟨rfl, rfl⟩ := List.cons.inj (hskip.symm.trans h)
  split
  · next h' => cases hnone.symm.trans h'
  split
  · next h' => rw [h']; rfl
  · next h' => rw [h']; rfl

/-- What is done behind an opening bracket. -/
def walkOpened (care : Care) (bracket : Bracket) (around : List Bracket) :
    Opened → Except Fault Bytes
  | .empty rest => walkRest care around rest
  | .value rest => walkValue care (bracket :: around) rest

theorem walkValue_of_bracket (hskip : skipSpace s = bracket.opening :: t) :
    walkValue care around s = if care.isFull around then .error .recursionLimit
      else bracket.opened care t >>= walkOpened care bracket around := by
  rw [walkValue]
  split
  · next h => cases hskip.symm.trans h
  next h =>
  obtain ⟨rfl, rfl⟩ := List.cons.inj (hskip.symm.trans h)
  rw [ofByte?_eq_some_iff.mpr rfl]
  simp only
  congr 1
  split
  · next h' => rw [h']; rfl
  · next h' => rw [h']; rfl
  · next h' => rw [h']; rfl

theorem walkRest_of_close (hskip : skipSpace s = bracket.close :: t) :
    walkRest care (bracket :: around) s = walkRest care around t := by
  rw [walkRest]
  split
  · next h => cases hskip.symm.trans h
  next h =>
  obtain ⟨rfl, rfl⟩ := List.cons.inj (hskip.symm.trans h)
  rw [if_pos rfl]

theorem walkRest_of_comma (hskip : skipSpace s = comma :: t) :
    walkRest care (bracket :: around) s =
      bracket.afterComma care t >>= walkValue care (bracket :: around) := by
  have hclose : comma ≠ bracket.close := by cases bracket <;> decide
  rw [walkRest]
  split
  · next h => cases hskip.symm.trans h
  next h =>
  obtain ⟨rfl, rfl⟩ := List.cons.inj (hskip.symm.trans h)
  rw [if_neg hclose, if_pos rfl]
  split
  · next h' => rw [h']; rfl
  · next h' => rw [h']; rfl

theorem walkRest_of_end (hskip : skipSpace s = []) :
    walkRest care (bracket :: around) s = .error bracket.unclosed := by
  rw [walkRest]
  split
  · rfl
  · next h => cases hskip.symm.trans h

theorem walkRest_of_other {b : UInt8} (hskip : skipSpace s = b :: t) (hclose : b ≠ bracket.close)
    (hcomma : b ≠ comma) :
    walkRest care (bracket :: around) s = .error bracket.unseparated := by
  rw [walkRest]
  split
  · next h => cases hskip.symm.trans h
  next h =>
  obtain ⟨rfl, rfl⟩ := List.cons.inj (hskip.symm.trans h)
  rw [if_neg hclose, if_neg hcomma]

end

/-! ## What comes in front of a value -/

section

variable (care : Care)

theorem walkKey_append {key before : Bytes} (hkey : IsContents key) (hbefore : Blank before)
    (rest : Bytes) : walkKey care (key ++ quote :: (before ++ colon :: rest)) =
      (Bracket.curly.checkKey care key).map fun _ => rest := by
  rw [walkKey, care.text_append hkey, Bracket.checkKey]
  cases care.text (key ++ [quote]) with
  | error fault => rfl
  | ok _ => exact afterColon_append hbefore rest

theorem opened_empty {bracket : Bracket} {space : Bytes} (h : Blank space) (rest : Bytes) :
    bracket.opened care (space ++ bracket.close :: rest) = .ok (.empty rest) := by
  cases bracket with
  | square =>
    rw [Bracket.opened, openArray, skipSpace_append h, skipSpace_cons rfl]
    rfl
  | curly =>
    rw [Bracket.opened, openObject, skipSpace_append h, skipSpace_cons rfl]
    rfl

/-- What comes in front of the first element or member is looked past with its bracket, but for
white space in front of the value. -/
theorem exists_opened {bracket : Bracket} {key front value : Bytes}
    (hfront : Fronts bracket true key front) (hvalue : IsValue value) (rest : Bytes) :
    ∃ space, Blank space ∧ bracket.opened care (front ++ value ++ rest) =
      (bracket.checkKey care key).map fun _ => .value (space ++ value ++ rest) := by
  cases hfront with
  | square hlead =>
    cases hlead with
    | first h =>
      refine ⟨[], .nil, ?_⟩
      rw [Bracket.opened, openArray, hvalue.skipSpace h]
      obtain ⟨b, tail, rfl, -, hb⟩ := hvalue.exists_cons
      have hclose : b ≠ closeBracket := by
        rintro rfl
        exact hb (by decide)
      simp only [List.cons_append, List.nil_append, if_neg hclose]
      rfl
  | @curly _ lead key before after hlead hkey hbefore hafter =>
    cases hlead with
    | first h =>
      have hwalk := walkKey_append care hkey hbefore (after ++ value ++ rest)
      refine ⟨after, hafter, ?_⟩
      simp only [List.append_assoc, List.cons_append] at hwalk ⊢
      rw [Bracket.opened, openObject, skipSpace_append h, skipSpace_cons rfl]
      simp only [if_neg (by decide : quote ≠ closeBrace), if_true, hwalk]
      cases Bracket.curly.checkKey care key <;> rfl

/-- Behind the comma, too. -/
theorem exists_afterComma {bracket : Bracket} {key front value : Bytes}
    (hfront : Fronts bracket false key front) (hvalue : IsValue value) (rest : Bytes) :
    ∃ before s space, Blank before ∧ Blank space ∧ front ++ value ++ rest = before ++ comma :: s ∧
      bracket.afterComma care s =
        (bracket.checkKey care key).map fun _ => space ++ value ++ rest := by
  cases hfront with
  | square hlead =>
    cases hlead with
    | @next before after h h' =>
      refine ⟨before, after ++ value ++ rest, after, h, h',
        by simp only [List.append_assoc, List.cons_append], ?_⟩
      obtain ⟨b, tail, rfl, hspace, hb⟩ := hvalue.exists_cons
      have hhead : (skipSpace (after ++ b :: tail ++ rest)).head? ≠ some closeBracket := by
        rw [List.append_assoc, skipSpace_append h', List.cons_append, skipSpace_cons hspace]
        rintro ⟨⟩
        exact hb (by decide)
      cases care with
      | strict => exact if_neg hhead
      | lax => rfl
  | @curly _ lead key before after hlead hkey hbefore hafter =>
    cases hlead with
    | @next space space' h h' =>
      refine ⟨space, space' ++ quote :: (key ++ quote :: (before ++ colon ::
        (after ++ value ++ rest))), after, h, hafter,
        by simp only [List.append_assoc, List.cons_append], ?_⟩
      have hnext (t : Bytes) : care.nextKey (space' ++ quote :: t) = .ok t := by
        rw [Care.nextKey.eq_def, skipSpace_append h', skipSpace_cons rfl]
        exact if_pos rfl
      rw [Bracket.afterComma, hnext]
      exact walkKey_append care hkey hbefore _

end

/-! ## Whole values -/

theorem scalar_word (care : Care) {b : UInt8} {due : Bytes} (h : b :: due ∈ words) (rest : Bytes) :
    care.scalar b (due ++ rest) = .ok rest := by
  rw [words_eq, List.mem_cons, List.mem_cons, List.mem_singleton] at h
  rcases h with h | h | h <;> obtain ⟨rfl, rfl⟩ := List.cons.inj h <;> exact word_append _ rest

/-- What a number starts with starts nothing else. -/
theorem ne_of_startsNumber {b c : UInt8} (hb : b = minus ∨ isDigit b = true)
    (hc : c ≠ minus ∧ isDigit c = false) : b ≠ c := by
  rintro rfl
  rcases hb with hb | hb
  · exact hc.1 hb
  · exact absurd hb (Bool.eq_false_iff.mp hc.2)

theorem scalar_number (care : Care) {b : UInt8} {s : Bytes} (hb : b = minus ∨ isDigit b = true) :
    care.scalar b s = care.number (b :: s) := by
  have hne {c : UInt8} (hc : c ≠ minus ∧ isDigit c = false) : b ≠ c := ne_of_startsNumber hb hc
  rw [Care.scalar, if_neg (hne (by decide)), if_neg (hne (by decide)), if_neg (hne (by decide)),
    if_neg (hne (by decide)), if_pos hb]

section

variable (care : Care) (around : List Bracket) {space : Bytes} (hspace : Blank space)

include hspace

theorem walkValue_word {value : Bytes} (h : value ∈ words) (rest : Bytes) :
    walkValue care around (space ++ value ++ rest) = walkRest care around rest := by
  have hskip := (IsValue.word h).skipSpace hspace rest
  have hcons := h
  rw [words_eq, List.mem_cons, List.mem_cons, List.mem_singleton] at hcons
  rcases hcons with rfl | rfl | rfl <;>
    rw [walkValue_of_scalar hskip rfl] <;> exact congrArg (· >>= _) (scalar_word care h rest)

theorem walkValue_string {raw : Bytes} (h : IsContents raw) (rest : Bytes) :
    walkValue care around (space ++ (quote :: (raw ++ [quote])) ++ rest) =
      (Tree.string raw).check care around >>= fun _ => walkRest care around rest := by
  have hskip : skipSpace (space ++ (quote :: (raw ++ [quote])) ++ rest) =
      quote :: (raw ++ quote :: rest) := by
    rw [(IsValue.string h).skipSpace hspace, List.cons_append, List.append_assoc]
    rfl
  rw [walkValue_of_scalar hskip rfl]
  have htext : care.scalar quote (raw ++ quote :: rest) = care.text (raw ++ quote :: rest) := rfl
  rw [htext, care.text_append h, Tree.check]
  cases care.text (raw ++ [quote]) <;> rfl

theorem walkValue_number {bytes rest : Bytes} (h : IsNumber bytes) (hrest : Closes rest) :
    walkValue care around (space ++ bytes ++ rest) =
      (Tree.number bytes).check care around >>= fun _ => walkRest care around rest := by
  have hskip := (IsValue.number h).skipSpace hspace rest
  obtain ⟨b, tail, rfl, hb⟩ := h.exists_cons
  have hnone : Bracket.ofByte? b = none := by
    rw [Bracket.ofByte?, if_neg, if_neg]
    · rintro rfl
      exact absurd hb (by decide)
    · rintro rfl
      exact absurd hb (by decide)
  rw [List.cons_append] at hskip
  rw [walkValue_of_scalar hskip hnone, scalar_number care hb, ← List.cons_append,
    care.number_append h hrest, Tree.check]
  cases care.number (b :: tail) <;> rfl

/-- The bracket counts even if there is nothing in it. -/
theorem walkValue_empty (bracket : Bracket) {blank : Bytes} (hblank : Blank blank) (rest : Bytes) :
    walkValue care around (space ++ (bracket.opening :: (blank ++ [bracket.close])) ++ rest) =
      (Tree.bracketed bracket []).check care around >>= fun _ => walkRest care around rest := by
  have hvalue : IsValue (bracket.opening :: (blank ++ [bracket.close])) :=
    .bracketed (.nil hblank)
  have hskip : skipSpace (space ++ (bracket.opening :: (blank ++ [bracket.close])) ++ rest) =
      bracket.opening :: (blank ++ bracket.close :: rest) := by
    rw [hvalue.skipSpace hspace, List.cons_append, List.append_assoc]
    rfl
  rw [walkValue_of_bracket hskip, opened_empty care hblank, Tree.check]
  by_cases hfull : care.isFull around = true
  · rw [if_pos hfull, if_pos hfull]
    rfl
  · rw [if_neg hfull, if_neg hfull]
    rfl

end

mutual

/-- **A walk over a value** checks it, and goes on behind it if there is no fault, inside of any
brackets. -/
theorem Written.walkValue_append : ∀ {tree : Tree} {value : Bytes}, Written tree value →
    ∀ (care : Care) (around : List Bracket) {space rest : Bytes}, Blank space → Closes rest →
    walkValue care around (space ++ value ++ rest) =
      tree.check care around >>= fun _ => walkRest care around rest
  | _, _, .word h, care, around, _, rest, hspace, _ => walkValue_word care around hspace h rest
  | _, _, .string h, care, around, _, rest, hspace, _ => walkValue_string care around hspace h rest
  | _, _, .number h, care, around, _, _, hspace, hrest =>
    walkValue_number care around hspace h hrest
  | _, _, .bracketed (.nil hblank), care, around, _, rest, hspace, _ =>
    walkValue_empty care around hspace _ hblank rest
  | _, _, @Written.bracketed bracket _ _
      (@WrittenItems.cons _ _ key front value tail _ items hfront hvalue hitems),
      care, around, space, rest, hspace, _ => by
    have hskip := (Written.bracketed (.cons hfront hvalue hitems)).isValue.skipSpace hspace rest
    rw [List.cons_append] at hskip
    obtain ⟨space', hspace', hopened⟩ := exists_opened care hfront hvalue.isValue (tail ++ rest)
    rw [← List.append_assoc] at hopened
    rw [walkValue_of_bracket hskip, hopened, Tree.check]
    by_cases hfull : care.isFull around = true
    · rw [if_pos hfull, if_pos hfull]
      rfl
    · rw [if_neg hfull, if_neg hfull, checkItems]
      have hwalk := hvalue.walkValue_append care (bracket :: around) hspace' (hitems.closes rest)
      rw [hitems.walkRest_append care around rest] at hwalk
      cases bracket.checkKey care key with
      | error fault => rfl
      | ok _ =>
        show walkValue _ _ _ = _
        rw [hwalk]
        cases Tree.check care (bracket :: around) _ <;> rfl
termination_by _ value => value.length
decreasing_by
  all_goals simp only [List.length_cons, List.length_append]
  all_goals omega

/-- What is left of an array or object is walked over. -/
theorem WrittenItems.walkRest_append : ∀ {bracket : Bracket} {items : List (Bytes × Tree)}
    {bytes : Bytes}, WrittenItems bracket false items bytes →
    ∀ (care : Care) (around : List Bracket) (rest : Bytes),
    walkRest care (bracket :: around) (bytes ++ rest) =
      checkItems care bracket around items >>= fun _ => walkRest care around rest
  | bracket, _, _, .nil hblank, care, around, rest => by
    have hclose : isSpace bracket.close = false := by cases bracket <;> rfl
    apply walkRest_of_close
    rw [List.append_assoc, skipSpace_append hblank]
    exact skipSpace_cons hclose rest
  | bracket, _, _, @WrittenItems.cons _ _ key front value tail _ items hfront hvalue hitems, care,
      around, rest => by
    obtain ⟨before, s, space, hbefore, hspace, heq, hafter⟩ :=
      exists_afterComma care hfront hvalue.isValue (tail ++ rest)
    rw [← List.append_assoc] at heq
    have hskip : skipSpace (front ++ value ++ tail ++ rest) = comma :: s := by
      rw [heq, skipSpace_append hbefore, skipSpace_cons rfl]
    have hwalk := hvalue.walkValue_append care (bracket :: around) hspace (hitems.closes rest)
    rw [hitems.walkRest_append care around rest] at hwalk
    rw [walkRest_of_comma hskip, hafter, checkItems]
    cases bracket.checkKey care key with
    | error fault => rfl
    | ok _ =>
      show walkValue _ _ _ = _
      rw [hwalk]
      cases Tree.check care (bracket :: around) _ <;> rfl
termination_by _ _ bytes => bytes.length
decreasing_by
  -- neither a value nor what is left of an array or object is empty
  all_goals
    have := hvalue.isValue.length_pos
    have := hitems.length_pos
    simp only [List.length_append]
    omega

end

/-- A walk over a value is its check. -/
theorem Written.walk_append {tree : Tree} {space value rest : Bytes} (h : Written tree value)
    (care : Care) (hspace : Blank space) (hrest : Closes rest) :
    walk care (space ++ value ++ rest) = (tree.check care []).map fun _ => rest := by
  rw [walk, h.walkValue_append care [] hspace hrest, walkRest]
  cases tree.check care [] <;> rfl

/-- **Every value is walked over** by a walk that only looks at its shape. -/
theorem IsValue.walk_append {space value rest : Bytes} (hspace : Blank space) (h : IsValue value)
    (hrest : Closes rest) : walk .lax (space ++ value ++ rest) = .ok rest := by
  obtain ⟨tree, htree⟩ := h.exists_written
  rw [htree.walk_append .lax hspace hrest, htree.check_lax]
  rfl

/-- **Where a value ends does not depend on how it is read.** -/
theorem IsValue.rest_unique {space space' value value' rest rest' : Bytes} (hspace : Blank space)
    (hspace' : Blank space') (h : IsValue value) (h' : IsValue value') (hrest : Closes rest)
    (hrest' : Closes rest') (heq : space ++ value ++ rest = space' ++ value' ++ rest') :
    rest = rest' := by
  have hwalk := h.walk_append hspace hrest
  rw [heq, h'.walk_append hspace' hrest'] at hwalk
  exact (Except.ok.inj hwalk).symm

end Strongbox.Json
