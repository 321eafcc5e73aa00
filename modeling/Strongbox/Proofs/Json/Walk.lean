import Strongbox.Proofs.Json.Grammar
import Strongbox.Proofs.Outcome

/-!
# Walks keep to the grammar

A walk that only looks at the shape of a value goes to the end of one value of the grammar. That its
brackets are held as a list does not show: what is left to read while some are open is, bracket by
bracket from the inside, what is left of an array or object.

## Main definitions

* `Json.Completes`: what is left of the brackets that are open

## Main results

* `Json.skipText_eq_ok_iff`: strings
* `Json.exists_of_numeral`, `Json.exists_numeral`: numbers
* `Json.step_of_walkValue`, `Json.step_of_walkRest`: what a walk does next
* `Json.exists_of_walk`: a walk goes over a value
-/

namespace Strongbox.Json

/-! ## Punctuation -/

theorem exists_of_skipSpace {s rest : Bytes} {b : UInt8} (h : skipSpace s = b :: rest) :
    ∃ space, Blank space ∧ s = space ++ b :: rest := by
  refine ⟨s.takeWhile isSpace, List.all_eq_true.mp List.all_takeWhile, ?_⟩
  rw [← h]
  exact List.takeWhile_append_dropWhile.symm

theorem exists_of_afterColon {s rest : Bytes} (h : afterColon s = .ok rest) :
    ∃ space, Blank space ∧ s = space ++ colon :: rest := by
  rw [afterColon] at h
  split at h
  · cases h
  next b t hskip =>
  split at h
  · next hb =>
    cases h
    exact hb ▸ exists_of_skipSpace hskip
  · cases h

theorem afterColon_append {space : Bytes} (h : Blank space) (rest : Bytes) :
    afterColon (space ++ colon :: rest) = .ok rest := by
  rw [afterColon, skipSpace_append h, skipSpace_cons rfl]
  exact if_pos rfl

/-! ## Strings -/

theorem skipEscape_eq_ok_iff {s rest : Bytes} :
    skipEscape s = .ok rest ↔ ∃ bytes, IsEscape (backslash :: bytes) ∧ s = bytes ++ rest := by
  constructor
  · intro h
    rw [skipEscape.eq_def] at h
    split at h
    · cases h
    next b t =>
    split at h
    · next hb =>
      obtain ⟨⟨unit, _⟩, hunit, rfl⟩ := map_eq_ok_iff.mp h
      obtain ⟨bytes, hspells, rfl⟩ := hexUnit_eq_ok_iff.mp hunit
      exact ⟨0x75 :: bytes, .unit hspells, hb ▸ rfl⟩
    · split at h
      · next c hc =>
        cases h
        exact ⟨[b], .letter (shortEscape?_eq_some_iff.mp hc), rfl⟩
      · cases h
  · rintro ⟨_, h, rfl⟩
    cases h with
    | @letter b c h =>
      rw [List.singleton_append, skipEscape, if_neg (ne_of_mem_letters h),
        shortEscape?_eq_some_iff.mpr h]
    | unit h =>
      rw [List.cons_append, skipEscape, if_pos rfl, hexUnit_eq_ok_iff.mpr ⟨_, h, rfl⟩]
      rfl

theorem IsEscape.exists_cons {bytes : Bytes} (h : IsEscape bytes) :
    ∃ rest, bytes = backslash :: rest := by
  cases h <;> exact ⟨_, rfl⟩

/-- What is skipped of a string is its contents and the quote behind them. -/
theorem skipText_eq_ok_iff {s rest : Bytes} :
    skipText s = .ok rest ↔ ∃ bytes, IsContents bytes ∧ s = bytes ++ quote :: rest := by
  constructor
  · intro h
    fun_induction skipText s with
    | case1 => cases h
    | case2 =>
      cases h
      exact ⟨[], .nil, rfl⟩
    | case3 => cases h
    | case4 s s' hescape _ ih =>
      obtain ⟨escaped, hisEscape, rfl⟩ := skipEscape_eq_ok_iff.mp hescape
      obtain ⟨bytes, hbytes, rfl⟩ := ih h
      refine ⟨backslash :: escaped ++ bytes, .escape hisEscape hbytes, ?_⟩
      rw [List.append_assoc, List.cons_append]
    | case5 => cases h
    | case6 b s hquote hbackslash hcontrol ih =>
      obtain ⟨bytes, hbytes, rfl⟩ := ih h
      exact ⟨b :: bytes, .plain ⟨hquote, hbackslash, hcontrol⟩ hbytes, rfl⟩
  · rintro ⟨bytes, hbytes, rfl⟩
    induction hbytes with
    | nil => rw [List.nil_append, skipText, if_pos rfl]
    | plain h _ ih =>
      obtain ⟨hquote, hbackslash, hcontrol⟩ := h
      rw [List.cons_append, skipText, if_neg hquote, if_neg hbackslash, if_neg hcontrol, ih]
    | @escape _ more h _ ih =>
      obtain ⟨escaped, rfl⟩ := h.exists_cons
      have hescape : skipEscape (escaped ++ (more ++ quote :: rest)) =
          .ok (more ++ quote :: rest) := skipEscape_eq_ok_iff.mpr ⟨escaped, h, rfl⟩
      rw [List.append_assoc, List.cons_append, skipText, if_neg (by decide), if_pos rfl]
      split
      · next hfault => cases hescape.symm.trans hfault
      · next hrest =>
        obtain rfl := Except.ok.inj (hescape.symm.trans hrest)
        exact ih

/-! ## Numbers -/

theorem exists_of_digits {s ds rest : Bytes} (h : digits s = (ds, rest)) :
    (∀ b ∈ ds, isDigit b = true) ∧ s = ds ++ rest := by
  obtain ⟨rfl, rfl⟩ := Prod.mk.inj h
  exact ⟨List.all_eq_true.mp List.all_takeWhile, List.takeWhile_append_dropWhile.symm⟩

theorem exists_of_digitsDue {atEnd : Fault} {s ds rest : Bytes}
    (h : digitsDue atEnd s = .ok (ds, rest)) : IsDigits ds ∧ s = ds ++ rest := by
  rw [digitsDue.eq_def] at h
  split at h
  · cases h
  next b t =>
  split at h
  · next hb =>
    obtain ⟨hds, heq⟩ := exists_of_digits (Except.ok.inj h)
    refine ⟨⟨?_, hds⟩, heq⟩
    rintro rfl
    have htake : (b :: t).takeWhile isDigit = [] := (Prod.mk.inj (Except.ok.inj h)).1
    rw [List.takeWhile_cons_of_pos hb] at htake
    cases htake
  · cases h

theorem digitsDue_append {ds rest : Bytes} (atEnd : Fault) (h : IsDigits ds)
    (hrest : rest.head?.any isDigit = false) : digitsDue atEnd (ds ++ rest) = .ok (ds, rest) := by
  obtain ⟨hne, hds⟩ := h
  obtain ⟨b, ds, rfl⟩ := List.exists_cons_of_ne_nil hne
  rw [List.cons_append, digitsDue, if_pos (hds b List.mem_cons_self), ← List.cons_append,
    digits_append hds hrest]

theorem exists_of_wholeDigits {atEnd : Fault} {s ds rest : Bytes}
    (h : wholeDigits atEnd s = .ok (ds, rest)) : IsWhole ds ∧ s = ds ++ rest := by
  rw [wholeDigits.eq_def] at h
  split at h
  · cases h
  next b t =>
  split at h
  · next hzero =>
    split at h
    · cases h
    · cases h
      exact ⟨hzero ▸ .zero, rfl⟩
  next hzero =>
  split at h
  · next hb =>
    have hdue : digitsDue atEnd (b :: t) = .ok (ds, rest) := by rw [digitsDue, if_pos hb, h]
    obtain ⟨hds, heq⟩ := exists_of_digitsDue hdue
    refine ⟨?_, heq⟩
    obtain ⟨c, ds, rfl⟩ := List.exists_cons_of_ne_nil hds.1
    obtain ⟨rfl, -⟩ := List.cons.inj heq
    exact .digits hzero hds
  · cases h

theorem wholeDigits_append {whole rest : Bytes} (atEnd : Fault) (h : IsWhole whole)
    (hrest : rest.head?.any isDigit = false) :
    wholeDigits atEnd (whole ++ rest) = .ok (whole, rest) := by
  cases h with
  | zero => rw [List.singleton_append, wholeDigits, if_pos rfl, if_neg (by simp [hrest])]
  | digits hb h =>
    rw [List.cons_append, wholeDigits, if_neg hb, if_pos (h.2 _ List.mem_cons_self),
      ← List.cons_append, digits_append h.2 hrest]

theorem exists_of_fractionDigits {atEnd : Fault} {s rest : Bytes} {found : Option Bytes}
    (h : fractionDigits atEnd s = .ok (found, rest)) :
    ∃ bytes, IsFraction bytes ∧ s = bytes ++ rest := by
  rw [fractionDigits.eq_def] at h
  split at h
  · obtain ⟨⟨ds, _⟩, hds, hpair⟩ := map_eq_ok_iff.mp h
    cases hpair
    obtain ⟨hdigits, rfl⟩ := exists_of_digitsDue hds
    exact ⟨0x2E :: ds, .some hdigits, rfl⟩
  · cases h
    exact ⟨[], .none, rfl⟩

theorem exists_fractionDigits {bytes : Bytes} (atEnd : Fault) (h : IsFraction bytes) :
    ∃ found, ∀ rest : Bytes, rest.head?.any isDigit = false → rest.head? ≠ some 0x2E →
      fractionDigits atEnd (bytes ++ rest) = .ok (found, rest) := by
  cases h with
  | none => exact ⟨none, fun _ _ hpoint => fractionDigits_of_ne atEnd hpoint⟩
  | @some ds h =>
    refine ⟨some ds, fun rest hrest _ => ?_⟩
    rw [List.cons_append, fractionDigits, digitsDue_append atEnd h hrest]
    rfl

theorem exists_of_exponentSign (s : Bytes) :
    ∃ sign, (sign = [] ∨ sign = [0x2B] ∨ sign = [minus]) ∧ s = sign ++ (exponentSign s).2 := by
  rw [exponentSign.eq_def]
  split
  · exact ⟨_, .inr (.inl rfl), rfl⟩
  · exact ⟨_, .inr (.inr rfl), rfl⟩
  · exact ⟨_, .inl rfl, rfl⟩

theorem exists_of_exponentDigits {atEnd : Fault} {s rest : Bytes} {found : Option (Bool × Bytes)}
    (h : exponentDigits atEnd s = .ok (found, rest)) :
    ∃ bytes, IsExponent bytes ∧ s = bytes ++ rest := by
  rw [exponentDigits.eq_def] at h
  split at h
  · cases h
    exact ⟨[], .none, rfl⟩
  next e t =>
  split at h
  · next he =>
    obtain ⟨⟨ds, _⟩, hds, hpair⟩ := map_eq_ok_iff.mp h
    cases hpair
    obtain ⟨hdigits, heq⟩ := exists_of_digitsDue hds
    obtain ⟨sign, hsign, ht⟩ := exists_of_exponentSign t
    refine ⟨e :: (sign ++ ds), .some he hsign hdigits, ?_⟩
    rw [List.cons_append, List.append_assoc, ← heq]
    exact congrArg (List.cons e) ht
  · cases h
    exact ⟨[], .none, rfl⟩

theorem exists_exponentSign {sign ds : Bytes}
    (hsign : sign = [] ∨ sign = [0x2B] ∨ sign = [minus]) (h : IsDigits ds) :
    ∃ negative, ∀ rest : Bytes, exponentSign (sign ++ (ds ++ rest)) = (negative, ds ++ rest) := by
  rcases hsign with rfl | rfl | rfl
  · obtain ⟨b, ds, rfl⟩ := List.exists_cons_of_ne_nil h.1
    have hb := h.2 b List.mem_cons_self
    refine ⟨false, fun rest => ?_⟩
    rw [List.nil_append, List.cons_append, exponentSign.eq_3]
    · rintro t ⟨⟩
      exact absurd hb (by decide)
    · rintro t ⟨⟩
      exact absurd hb (by decide)
  · exact ⟨false, fun _ => rfl⟩
  · exact ⟨true, fun _ => rfl⟩

theorem exists_exponentDigits {bytes : Bytes} (atEnd : Fault) (h : IsExponent bytes) :
    ∃ found, ∀ rest : Bytes, Closes rest →
      exponentDigits atEnd (bytes ++ rest) = .ok (found, rest) := by
  cases h with
  | none => exact ⟨none, fun _ hrest => exponentDigits_closes atEnd hrest⟩
  | @some e sign ds he hsign h =>
    obtain ⟨negative, hsignRead⟩ := exists_exponentSign hsign h
    refine ⟨some (negative, ds), fun rest hrest => ?_⟩
    rw [List.cons_append, List.append_assoc, exponentDigits, if_pos he]
    simp only [hsignRead, digitsDue_append atEnd h hrest.not_digit]
    rfl

theorem exists_of_minusSign (s : Bytes) :
    ∃ sign, (sign = [] ∨ sign = [minus]) ∧ s = sign ++ (minusSign s).2 := by
  rw [minusSign.eq_def]
  split
  · exact ⟨_, .inr rfl, rfl⟩
  · exact ⟨_, .inl rfl, rfl⟩

/-- What is read of a number is a number. -/
theorem exists_of_numeral {atEnd : Fault} {s rest : Bytes} {n : Numeral}
    (h : numeral atEnd s = .ok (n, rest)) : ∃ bytes, IsNumber bytes ∧ s = bytes ++ rest := by
  simp only [numeral, unsignedNumeral, bind_eq_ok_iff] at h
  obtain ⟨⟨whole, _⟩, hwhole, ⟨_, _⟩, hfraction, ⟨_, _⟩, hexponent, heq⟩ := h
  cases heq
  obtain ⟨hisWhole, heq⟩ := exists_of_wholeDigits hwhole
  obtain ⟨fraction, hisFraction, rfl⟩ := exists_of_fractionDigits hfraction
  obtain ⟨exponent, hisExponent, rfl⟩ := exists_of_exponentDigits hexponent
  obtain ⟨sign, hsign, hs⟩ := exists_of_minusSign s
  refine ⟨_, .mk hsign hisWhole hisFraction hisExponent, ?_⟩
  rw [hs, heq]
  simp only [List.append_assoc]

/-- Every number is read, up to what comes after a value, which does not show in what is read. -/
theorem exists_numeral {bytes : Bytes} (atEnd : Fault) (h : IsNumber bytes) :
    ∃ n, ∀ rest : Bytes, Closes rest → numeral atEnd (bytes ++ rest) = .ok (n, rest) := by
  cases h with
  | @mk sign whole fraction exponent hsign hwhole hfraction hexponent =>
    obtain ⟨fractionRead, hfractionRead⟩ := exists_fractionDigits atEnd hfraction
    obtain ⟨exponentRead, hexponentRead⟩ := exists_exponentDigits atEnd hexponent
    obtain ⟨negative, hminus⟩ : ∃ negative, ∀ rest : Bytes,
        minusSign (sign ++ (whole ++ rest)) = (negative, whole ++ rest) := by
      obtain ⟨b, tail, rfl, hb⟩ := hwhole.exists_cons
      rcases hsign with rfl | rfl
      · exact ⟨false, fun rest => minusSign_of_digit hb _⟩
      · exact ⟨true, fun _ => rfl⟩
    refine ⟨⟨negative, whole, fractionRead, exponentRead⟩, fun rest hrest => ?_⟩
    have hafterFraction : (exponent ++ rest).head?.any isDigit = false ∧
        (exponent ++ rest).head? ≠ some 0x2E := by
      cases hexponent with
      | none => exact ⟨hrest.not_digit, hrest.ne rfl (by decide)⟩
      | some he _ _ => rcases he with rfl | rfl <;> exact ⟨rfl, by simp⟩
    have hafterWhole : (fraction ++ (exponent ++ rest)).head?.any isDigit = false := by
      cases hfraction with
      | none => exact hafterFraction.1
      | some _ => rfl
    simp only [List.append_assoc, numeral, unsignedNumeral, hminus, bind, Except.bind,
      wholeDigits_append atEnd hwhole hafterWhole,
      hfractionRead _ hafterFraction.1 hafterFraction.2, hexponentRead _ hrest]

/-! ## Values without brackets -/

theorem ofByte?_eq_some_iff {b : UInt8} {bracket : Bracket} :
    Bracket.ofByte? b = some bracket ↔ b = bracket.opening := by
  rw [Bracket.ofByte?]
  split
  · next h => cases bracket <;> simp [h, Bracket.opening, openBracket, openBrace]
  split
  · next h => cases bracket <;> simp [h, Bracket.opening, openBracket, openBrace]
  · next h h' => cases bracket <;> simp [h, h', Bracket.opening]

theorem exists_of_scalar {b : UInt8} {s rest : Bytes} (h : Care.lax.scalar b s = .ok rest) :
    ∃ value, IsValue value ∧ b :: s = value ++ rest := by
  have hword {due : Bytes} (hmem : b :: due ∈ words) (hdue : word due s = .ok rest) :
      ∃ value, IsValue value ∧ b :: s = value ++ rest :=
    ⟨b :: due, .word hmem, by rw [eq_append_of_word hdue, List.cons_append]⟩
  rw [Care.scalar] at h
  split at h
  · next hb => exact hword (hb ▸ by decide) h
  split at h
  · next hb => exact hword (hb ▸ by decide) h
  split at h
  · next hb => exact hword (hb ▸ by decide) h
  split at h
  · next hb =>
    obtain ⟨bytes, hbytes, rfl⟩ := skipText_eq_ok_iff.mp h
    refine ⟨quote :: (bytes ++ [quote]), .string hbytes, ?_⟩
    rw [hb, List.cons_append, List.append_assoc, List.singleton_append]
  split at h
  · obtain ⟨⟨n, _⟩, hnumeral, rfl⟩ := map_eq_ok_iff.mp h
    obtain ⟨bytes, hbytes, heq⟩ := exists_of_numeral hnumeral
    exact ⟨bytes, .number hbytes, heq⟩
  · cases h

/-! ## What comes in front of a value -/

/-- A key is walked over with its colon. -/
theorem walkKey_eq_ok_iff {s rest : Bytes} :
    walkKey .lax s = .ok rest ↔ ∃ key before, IsContents key ∧ Blank before ∧
      s = key ++ quote :: (before ++ colon :: rest) := by
  rw [walkKey, bind_eq_ok_iff]
  constructor
  · rintro ⟨_, htext, hcolon⟩
    obtain ⟨key, hkey, rfl⟩ := skipText_eq_ok_iff.mp htext
    obtain ⟨before, hbefore, rfl⟩ := exists_of_afterColon hcolon
    exact ⟨key, before, hkey, hbefore, rfl⟩
  · rintro ⟨key, before, hkey, hbefore, rfl⟩
    exact ⟨_, skipText_eq_ok_iff.mpr ⟨key, hkey, rfl⟩, afterColon_append hbefore rest⟩

theorem exists_of_opened_empty {bracket : Bracket} {s rest : Bytes}
    (h : bracket.opened .lax s = .ok (.empty rest)) :
    ∃ space, Blank space ∧ s = space ++ bracket.close :: rest := by
  cases bracket with
  | square =>
    simp only [Bracket.opened, openArray] at h
    split at h
    · cases h
    next b t hskip =>
    split at h
    · next hb =>
      cases h
      subst hb
      exact exists_of_skipSpace hskip
    · cases h
  | curly =>
    simp only [Bracket.opened, openObject] at h
    split at h
    · cases h
    next b t hskip =>
    split at h
    · next hb =>
      cases h
      subst hb
      exact exists_of_skipSpace hskip
    split at h
    · obtain ⟨_, -, hvalue⟩ := map_eq_ok_iff.mp h
      cases hvalue
    · cases h

theorem exists_of_opened_value {bracket : Bracket} {s rest : Bytes}
    (h : bracket.opened .lax s = .ok (.value rest)) :
    ∃ key front, Fronts bracket true key front ∧ s = front ++ rest := by
  cases bracket with
  | square =>
    simp only [Bracket.opened, openArray] at h
    split at h
    · cases h
    next b t hskip =>
    split at h
    · cases h
    · cases h
      obtain ⟨space, hspace, rfl⟩ := exists_of_skipSpace hskip
      exact ⟨[], space, .square (.first hspace), rfl⟩
  | curly =>
    simp only [Bracket.opened, openObject] at h
    split at h
    · cases h
    next b t hskip =>
    split at h
    · cases h
    split at h
    · next hb =>
      obtain ⟨_, hkey, hvalue⟩ := map_eq_ok_iff.mp h
      cases hvalue
      obtain ⟨space, hspace, rfl⟩ := exists_of_skipSpace hskip
      obtain ⟨key, before, hcontents, hbefore, rfl⟩ := walkKey_eq_ok_iff.mp hkey
      refine ⟨key, _, .curly (.first hspace) hcontents hbefore .nil, ?_⟩
      rw [hb]
      simp only [List.append_assoc, List.cons_append, List.nil_append]
    · cases h

theorem exists_of_afterComma {bracket : Bracket} {s rest before : Bytes}
    (h : bracket.afterComma .lax s = .ok rest) (hbefore : Blank before) :
    ∃ key front, Fronts bracket false key front ∧ before ++ comma :: s = front ++ rest := by
  cases bracket with
  | square =>
    cases h
    exact ⟨[], before ++ [comma], .square (.next hbefore .nil), by rw [List.append_assoc]; rfl⟩
  | curly =>
    obtain ⟨_, hnext, hkey⟩ := bind_eq_ok_iff.mp h
    rw [Care.nextKey] at hnext
    split at hnext
    · cases hnext
    next b t hskip =>
    split at hnext
    · next hb =>
      cases hnext
      obtain ⟨space, hspace, rfl⟩ := exists_of_skipSpace hskip
      obtain ⟨key, before', hcontents, hbefore', rfl⟩ := walkKey_eq_ok_iff.mp hkey
      refine ⟨key, _, .curly (.next hbefore hspace) hcontents hbefore' .nil, ?_⟩
      rw [hb]
      simp only [List.append_assoc, List.cons_append, List.nil_append]
    · cases hnext

/-! ## Whole values -/

/-- What is left to read while brackets are open, the innermost first. -/
def Completes : List Bracket → Bytes → Prop
  | [], tail => tail = []
  | bracket :: outer, tail => ∃ items inner after, IsItems bracket false items inner ∧
      Completes outer after ∧ tail = inner ++ after

/-- A step of a walk in front of a value: over one without brackets or with nothing in them, or into
a bracket. -/
theorem step_of_walkValue {around : List Bracket} {s rest : Bytes}
    (h : walkValue .lax around s = .ok rest) :
    ∃ space t, Blank space ∧ t.length < s.length ∧
      ((∃ value, IsValue value ∧ s = space ++ value ++ t ∧ walkRest .lax around t = .ok rest) ∨
        ∃ bracket key front, Fronts bracket true key front ∧
          s = space ++ bracket.opening :: (front ++ t) ∧
          walkValue .lax (bracket :: around) t = .ok rest) := by
  rw [walkValue] at h
  split at h
  · cases h
  next b t hskip =>
  have hlt := length_of_skipSpace hskip
  obtain ⟨space, hspace, rfl⟩ := exists_of_skipSpace hskip
  split at h
  · next bracket hbracket =>
    obtain rfl := ofByte?_eq_some_iff.mp hbracket
    rw [Care.isFull, if_neg Bool.false_ne_true] at h
    split at h
    · cases h
    · next u hopened =>
      have hlen := Bracket.length_of_opened hopened
      rw [Opened.bytes] at hlen
      obtain ⟨blank, hblank, rfl⟩ := exists_of_opened_empty hopened
      have hvalue : IsValue (bracket.opening :: (blank ++ [bracket.close])) :=
        .bracketed (.nil hblank)
      refine ⟨space, u, hspace, by omega, .inl ⟨_, hvalue, ?_, h⟩⟩
      simp only [List.append_assoc, List.cons_append, List.nil_append]
    · next u hopened =>
      have hlen := Bracket.length_of_opened hopened
      rw [Opened.bytes] at hlen
      obtain ⟨key, front, hfront, rfl⟩ := exists_of_opened_value hopened
      exact ⟨space, u, hspace, by omega, .inr ⟨bracket, key, front, hfront, rfl, h⟩⟩
  · split at h
    · cases h
    next u hscalar =>
    have hlen := Care.length_of_scalar hscalar
    obtain ⟨value, hvalue, heq⟩ := exists_of_scalar hscalar
    refine ⟨space, u, hspace, by omega, .inl ⟨value, hvalue, ?_, h⟩⟩
    rw [heq, List.append_assoc]

/-- A step of a walk behind a value: out of the innermost bracket, or on to its next value. -/
theorem step_of_walkRest {around : List Bracket} {s rest : Bytes}
    (h : walkRest .lax around s = .ok rest) :
    (around = [] ∧ s = rest) ∨ ∃ bracket outer t, around = bracket :: outer ∧
      t.length < s.length ∧
      ((∃ space, Blank space ∧ s = space ++ bracket.close :: t ∧
          walkRest .lax outer t = .ok rest) ∨
        ∃ key front, Fronts bracket false key front ∧ s = front ++ t ∧
          walkValue .lax (bracket :: outer) t = .ok rest) := by
  rw [walkRest.eq_def] at h
  split at h
  · cases h
    exact .inl ⟨rfl, rfl⟩
  next bracket outer =>
  split at h
  · cases h
  next b t hskip =>
  have hlt := length_of_skipSpace hskip
  obtain ⟨space, hspace, rfl⟩ := exists_of_skipSpace hskip
  split at h
  · next hclose =>
    subst hclose
    exact .inr ⟨bracket, outer, t, rfl, by omega, .inl ⟨space, hspace, rfl, h⟩⟩
  split at h
  · next hcomma =>
    split at h
    · cases h
    next u hafter =>
    have hlen := Bracket.length_of_afterComma hafter
    obtain ⟨key, front, hfront, heq⟩ := exists_of_afterComma hafter hspace
    refine .inr ⟨bracket, outer, u, rfl, by omega, .inr ⟨key, front, hfront, ?_, h⟩⟩
    rw [hcomma, heq]
  · cases h

/-- A walk that starts in front of a value goes over it and over what is left of the brackets that
are open, one that starts behind a value over what is left. -/
theorem exists_of_walkValue_walkRest (n : Nat) :
    (∀ around s rest, s.length ≤ n → walkValue .lax around s = .ok rest →
      ∃ space value tail, Blank space ∧ IsValue value ∧ Completes around tail ∧
        s = space ++ value ++ tail ++ rest) ∧
    (∀ around s rest, s.length ≤ n → walkRest .lax around s = .ok rest →
      ∃ tail, Completes around tail ∧ s = tail ++ rest) := by
  -- each step of the walk takes a byte at least
  induction n using Nat.strongRecOn with
  | ind n ih =>
    constructor
    · intro around s rest hn h
      obtain ⟨space, t, hspace, hlt, hstep⟩ := step_of_walkValue h
      rcases hstep with ⟨value, hvalue, rfl, hwalk⟩ | ⟨bracket, key, front, hfront, rfl, hwalk⟩
      · obtain ⟨tail, htail, rfl⟩ := (ih t.length (by omega)).2 _ _ _ (Nat.le_refl _) hwalk
        exact ⟨space, value, tail, hspace, hvalue, htail, (List.append_assoc ..).symm⟩
      · obtain ⟨space', value, _, hspace', hvalue, ⟨items, inner, tail, hinner, htail, rfl⟩, rfl⟩ :=
          (ih t.length (by omega)).1 _ _ _ (Nat.le_refl _) hwalk
        refine ⟨space, _, tail, hspace,
          .bracketed (.cons (hfront.append_blank hspace') hvalue hinner), htail, ?_⟩
        simp only [List.append_assoc, List.cons_append]
    · intro around s rest hn h
      rcases step_of_walkRest h with ⟨rfl, rfl⟩ | ⟨bracket, outer, t, rfl, hlt, hstep⟩
      · exact ⟨[], rfl, rfl⟩
      rcases hstep with ⟨space, hspace, rfl, hwalk⟩ | ⟨key, front, hfront, rfl, hwalk⟩
      · obtain ⟨tail, htail, rfl⟩ := (ih t.length (by omega)).2 _ _ _ (Nat.le_refl _) hwalk
        refine ⟨_, ⟨[], space ++ [bracket.close], tail, .nil hspace, htail, rfl⟩, ?_⟩
        simp only [List.append_assoc, List.cons_append, List.nil_append]
      · obtain ⟨space', value, _, hspace', hvalue, ⟨items, inner, tail, hinner, htail, rfl⟩, rfl⟩ :=
          (ih t.length (by omega)).1 _ _ _ (Nat.le_refl _) hwalk
        refine ⟨_, ⟨_, _, tail, .cons (hfront.append_blank hspace') hvalue hinner, htail, rfl⟩, ?_⟩
        simp only [List.append_assoc]

/-- **A walk goes over a value.** -/
theorem exists_of_walk {s rest : Bytes} (h : walk .lax s = .ok rest) :
    ∃ space value, Blank space ∧ IsValue value ∧ s = space ++ value ++ rest := by
  obtain ⟨space, value, _, hspace, hvalue, rfl, heq⟩ :=
    (exists_of_walkValue_walkRest s.length).1 [] s rest (Nat.le_refl _) h
  rw [List.append_nil] at heq
  exact ⟨space, value, hspace, hvalue, heq⟩

end Strongbox.Json
