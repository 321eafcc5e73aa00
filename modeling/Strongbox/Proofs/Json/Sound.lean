import Mathlib.Data.List.TakeWhile
import Strongbox.Json.Record
import Strongbox.Proofs.Json.Walk

/-!
# Readers keep to the grammar

Whatever a reader makes of a value, what it takes off the front of a byte string is a value of the
grammar with white space in front of it. This holds for strings that are kept, for numbers, for
values that may be refused, and for records with all their members, those walked over among them.
A document that is read is therefore one of the grammar, down to the last byte.

## Main definitions

* `Json.Sound`: a reader that takes nothing but values

## Main results

* `Json.sound_string`, `Json.sound_natural`, `Sound.nullable`, `Sound.refined`: the values of fields
* `Json.exists_of_members`, `Json.exists_of_elements`: the two ways to write a record
* `Schema.isDocument_of_decode`: whole documents
-/

namespace Strongbox.Json

/-- A reader that takes a value off the front of a byte string, and nothing but a value. -/
def Sound {α : Type} (read : Reader α) : Prop :=
  ∀ ⦃s rest : Bytes⦄ ⦃value : α⦄, read s = .ok (value, rest) →
    ∃ space bytes, Blank space ∧ IsValue bytes ∧ s = space ++ bytes ++ rest

/-! ## Strings -/

theorem exists_of_pairByte {due : UInt8} {s rest : Bytes} (h : pairByte due s = .ok rest) :
    s = due :: rest := by
  rw [pairByte.eq_def] at h
  split at h
  · cases h
  split at h
  · next hb =>
    cases h
    rw [hb]
  · cases h

theorem exists_of_unitEscape {s rest : Bytes} {c : Char} (h : unitEscape s = .ok (c, rest)) :
    ∃ bytes, IsContents (backslash :: 0x75 :: bytes) ∧ s = bytes ++ rest := by
  simp only [unitEscape, bind_eq_ok_iff, Prod.exists] at h
  obtain ⟨unit, t, hunit, h⟩ := h
  obtain ⟨bytes, hbytes, rfl⟩ := hexUnit_eq_ok_iff.mp hunit
  have hescape := (IsEscape.unit hbytes).isContents
  split at h
  · cases h
  split at h
  · simp only [bind_eq_ok_iff, Prod.exists] at h
    obtain ⟨u, hbackslash, v, hu, unit', w, hunit', h⟩ := h
    obtain ⟨bytes', hbytes', rfl⟩ := hexUnit_eq_ok_iff.mp hunit'
    obtain rfl := exists_of_pairByte hbackslash
    obtain rfl := exists_of_pairByte hu
    split at h
    · obtain ⟨-, rfl⟩ := Prod.mk.inj (Except.ok.inj h)
      refine ⟨bytes ++ backslash :: 0x75 :: bytes',
        hescape.append (IsEscape.unit hbytes').isContents, ?_⟩
      simp only [List.append_assoc, List.cons_append]
    · cases h
  · cases h
    exact ⟨bytes, hescape, rfl⟩

theorem exists_of_escape {s rest : Bytes} {c : Char} (h : escape s = .ok (c, rest)) :
    ∃ bytes, IsContents (backslash :: bytes) ∧ s = bytes ++ rest := by
  rw [escape.eq_def] at h
  split at h
  · cases h
  next b t =>
  split at h
  · next hb =>
    obtain ⟨bytes, hbytes, rfl⟩ := exists_of_unitEscape h
    exact ⟨0x75 :: bytes, hbytes, hb ▸ rfl⟩
  split at h
  · next c' hletter =>
    cases h
    exact ⟨[b], (IsEscape.letter (shortEscape?_eq_some_iff.mp hletter)).isContents, rfl⟩
  · cases h

theorem exists_of_contents {s bytes rest : Bytes} (h : contents s = .ok (bytes, rest)) :
    ∃ raw, IsContents raw ∧ s = raw ++ quote :: rest := by
  fun_induction contents s generalizing bytes with
  | case1 => cases h
  | case2 =>
    cases h
    exact ⟨[], .nil, rfl⟩
  | case3 => cases h
  | case4 s c s' hescape _ ih =>
    obtain ⟨⟨more, _⟩, hmore, heq⟩ := map_eq_ok_iff.mp h
    cases heq
    obtain ⟨escaped, hescaped, rfl⟩ := exists_of_escape hescape
    obtain ⟨raw, hraw, rfl⟩ := ih hmore
    refine ⟨backslash :: escaped ++ raw, hescaped.append hraw, ?_⟩
    rw [List.append_assoc, List.cons_append]
  | case5 => cases h
  | case6 b s hquote hbackslash hcontrol ih =>
    obtain ⟨⟨more, _⟩, hmore, heq⟩ := map_eq_ok_iff.mp h
    cases heq
    obtain ⟨raw, hraw, rfl⟩ := ih hmore
    exact ⟨b :: raw, .plain ⟨hquote, hbackslash, hcontrol⟩ hraw, rfl⟩

theorem exists_of_text {source : Source} {s rest : Bytes} {value : String}
    (h : text source s = .ok (value, rest)) :
    ∃ raw, IsContents raw ∧ s = raw ++ quote :: rest := by
  obtain ⟨⟨bytes, t⟩, hcontents, h⟩ := bind_eq_ok_iff.mp h
  have hrest : t = rest := by
    simp only at h
    split at h
    · exact (Prod.mk.inj (Except.ok.inj h)).2
    · split at h
      · exact (Prod.mk.inj (Except.ok.inj h)).2
      · cases h
  exact hrest ▸ exists_of_contents hcontents

/-! ## The values of fields -/

theorem sound_string (source : Source) : Sound (string source) := by
  intro s rest value h
  rw [string] at h
  split at h
  · cases h
  next b t hskip =>
  split at h
  · next hb =>
    obtain ⟨space, hspace, rfl⟩ := exists_of_skipSpace hskip
    obtain ⟨raw, hraw, rfl⟩ := exists_of_text h
    refine ⟨space, _, hspace, .string hraw, ?_⟩
    rw [hb]
    simp only [List.append_assoc, List.cons_append, List.nil_append]
  · cases h

theorem sound_wholeNumber (source : Source) (room : Nat) : Sound (wholeNumber source room) := by
  intro s rest value h
  rw [wholeNumber] at h
  split at h
  · cases h
  next b t hskip =>
  obtain ⟨space, hspace, rfl⟩ := exists_of_skipSpace hskip
  split at h
  · next hb =>
    split at h
    · cases h
    next u htext =>
    split at h
    · cases h
      obtain ⟨raw, hraw, rfl⟩ := exists_of_text htext
      refine ⟨space, _, hspace, .string hraw, ?_⟩
      rw [hb]
      simp only [List.append_assoc, List.cons_append, List.nil_append]
    · cases h
  split at h
  · split at h
    · cases h
    · next hnumber =>
      cases h
      obtain ⟨⟨n, _⟩, hnumeral, hvalue⟩ := bind_eq_ok_iff.mp hnumber
      obtain ⟨_, -, heq⟩ := bind_eq_ok_iff.mp hvalue
      cases heq
      obtain ⟨bytes, hbytes, heq⟩ := exists_of_numeral hnumeral
      exact ⟨space, bytes, hspace, .number hbytes, by rw [heq, List.append_assoc]⟩
    · cases h
  · split at h <;> cases h

theorem sound_natural (source : Source) (room : Nat) : Sound (natural source room) := by
  intro s rest value h
  rw [natural] at h
  split at h
  · cases h
  next hwhole =>
  split at h
  · cases h
    exact sound_wholeNumber source room hwhole
  · cases h

section

variable {α β : Type} {read : Reader α}

theorem Sound.map (h : Sound read) (store : α → β) :
    Sound fun s => (read s).map fun (value, rest) => (store value, rest) := by
  intro s rest value hread
  obtain ⟨⟨_, _⟩, hread, heq⟩ := map_eq_ok_iff.mp hread
  cases heq
  exact h hread

theorem Sound.nullable (h : Sound read) : Sound (Json.nullable read) := by
  intro s rest value hread
  rw [Json.nullable] at hread
  split at hread
  · cases hread
  next b t hskip =>
  obtain ⟨space, hspace, rfl⟩ := exists_of_skipSpace hskip
  split at hread
  · next hb =>
    obtain ⟨_, hword, heq⟩ := map_eq_ok_iff.mp hread
    cases heq
    refine ⟨space, 0x6E :: ofNull, hspace, .word (by decide), ?_⟩
    rw [hb, eq_append_of_word hword, List.append_assoc, List.cons_append]
  · obtain ⟨⟨_, _⟩, hread, heq⟩ := map_eq_ok_iff.mp hread
    cases heq
    obtain ⟨space', bytes, hspace', hbytes, heq⟩ := h hread
    refine ⟨space ++ space', bytes, hspace.append hspace', hbytes, ?_⟩
    rw [heq]
    simp only [List.append_assoc]

theorem Sound.refined {make : α → Except String β} (h : Sound read) :
    Sound (Json.refined read make) := by
  intro s rest value hread
  rw [Json.refined] at hread
  split at hread
  · cases hread
  next hvalue =>
  split at hread
  · cases hread
    exact h hvalue
  · cases hread

end

/-! ## Records -/

/-- The comma in front of an element or member, and the white space on its two sides. -/
theorem exists_leads {b : UInt8} {before s t : Bytes} (hbefore : Blank before)
    (hskip : skipSpace s = b :: t) :
    ∃ lead, Leads false lead ∧ before ++ comma :: s = lead ++ b :: t := by
  obtain ⟨after, hafter, rfl⟩ := exists_of_skipSpace hskip
  refine ⟨before ++ comma :: after, .next hbefore hafter, ?_⟩
  rw [List.append_assoc, List.cons_append]

theorem exists_of_memberKey_none {source : Source} {first : Bool} {s rest : Bytes}
    (h : memberKey source first s = .ok (none, rest)) :
    ∃ space, Blank space ∧ s = space ++ closeBrace :: rest := by
  rw [memberKey] at h
  split at h
  · cases h
  next b t hskip =>
  split at h
  · next hb =>
    cases h
    exact hb ▸ exists_of_skipSpace hskip
  split at h
  · split at h
    · obtain ⟨_, _, heq⟩ := map_eq_ok_iff.mp h
      cases heq
    · cases h
  split at h
  · split at h
    · cases h
    · obtain ⟨_, _, heq⟩ := map_eq_ok_iff.mp h
      cases heq
  · cases h

/-- A key behind what comes in front of it, up to the value. -/
theorem exists_fronts_of_text {source : Source} {first : Bool} {lead s t rest : Bytes}
    {key : String} (hlead : Leads first lead)
    (htext : (text source s).map (fun read => (some read.1, read.2)) = .ok (some key, t))
    (hcolon : afterColon t = .ok rest) :
    ∃ raw front, Fronts .curly first raw front ∧ lead ++ quote :: s = front ++ rest := by
  obtain ⟨before, hbefore, rfl⟩ := exists_of_afterColon hcolon
  obtain ⟨⟨_, t⟩, htext, heq⟩ := map_eq_ok_iff.mp htext
  obtain rfl : t = before ++ colon :: rest := (Prod.mk.inj heq).2
  obtain ⟨raw, hraw, rfl⟩ := exists_of_text htext
  refine ⟨raw, _, .curly hlead hraw hbefore .nil, ?_⟩
  simp only [List.append_assoc, List.cons_append, List.nil_append]

theorem exists_of_memberKey_some {source : Source} {first : Bool} {s t rest : Bytes} {key : String}
    (h : memberKey source first s = .ok (some key, t)) (hcolon : afterColon t = .ok rest) :
    ∃ raw front, Fronts .curly first raw front ∧ s = front ++ rest := by
  rw [memberKey] at h
  split at h
  · cases h
  next b u hskip =>
  obtain ⟨space, hspace, rfl⟩ := exists_of_skipSpace hskip
  split at h
  · cases h
  split at h
  · next hfirst =>
    subst hfirst
    split at h
    · next hb => exact hb ▸ exists_fronts_of_text (.first hspace) h hcolon
    · cases h
  next hfirst =>
  obtain rfl := Bool.not_eq_true _ ▸ hfirst
  split at h
  · next hb =>
    split at h
    · cases h
    next v hnext =>
    rw [Care.nextKey] at hnext
    split at hnext
    · cases hnext
    next c w hskip' =>
    split at hnext
    · next hc =>
      cases hnext
      obtain ⟨lead, hlead, heq⟩ := exists_leads hspace hskip'
      rw [hb, heq, hc]
      exact exists_fronts_of_text hlead h hcolon
    · cases hnext
  · cases h

variable {α : Type} {fields : List (Field α)} {source : Source} {room : Nat} {first : Bool}
  {record record' : α} {s rest : Bytes}

/-- What is read of an object is what is left of an object. -/
theorem exists_of_members (hfields : ∀ field ∈ fields, ∀ record,
      Sound (field.read source room record)) {seen : List String}
    (h : members fields source room first seen record s = .ok (record', rest)) :
    ∃ items bytes, IsItems .curly first items bytes ∧ s = bytes ++ rest := by
  fun_induction members fields source room first seen record s with
  | case1 => cases h
  | case2 first seen record s t hkey =>
    cases h
    obtain ⟨space, hspace, rfl⟩ := exists_of_memberKey_none hkey
    exact ⟨[], space ++ [closeBrace], .nil hspace, by rw [List.append_assoc]; rfl⟩
  | case3 => cases h
  | case4 => cases h
  | case5 first seen record s key t hkey _ u hcolon v hvalue ih =>
    obtain ⟨raw, front, hfront, rfl⟩ := exists_of_memberKey_some hkey hcolon
    obtain ⟨space, value, hspace, hisValue, rfl⟩ := exists_of_walk hvalue
    obtain ⟨items, bytes, hitems, rfl⟩ := ih h
    refine ⟨_, _, .cons (hfront.append_blank hspace) hisValue hitems, ?_⟩
    simp only [List.append_assoc]
  | case6 => cases h
  | case7 => cases h
  | case8 => cases h
  | case9 first seen record s key t hkey field hfield _ u hcolon record₂ v hvalue ih =>
    obtain ⟨raw, front, hfront, rfl⟩ := exists_of_memberKey_some hkey hcolon
    obtain ⟨space, value, hspace, hisValue, rfl⟩ :=
      hfields field (List.mem_of_find?_eq_some hfield) record hvalue
    obtain ⟨items, bytes, hitems, rfl⟩ := ih h
    refine ⟨_, _, .cons (hfront.append_blank hspace) hisValue hitems, ?_⟩
    simp only [List.append_assoc]

theorem exists_of_endOfArray (h : endOfArray s = .ok rest) :
    ∃ space, Blank space ∧ s = space ++ closeBracket :: rest := by
  rw [endOfArray] at h
  split at h
  · cases h
  next b t hskip =>
  split at h
  · next hb =>
    cases h
    exact hb ▸ exists_of_skipSpace hskip
  · split at h <;> cases h

/-- Where an element may stand, either the array ends, or the element is read behind its lead. -/
theorem exists_of_elements_cons {field : Field α}
    (h : elements source room (field :: fields) first record s = .ok (record', rest)) :
    (∃ space, Blank space ∧ s = space ++ closeBracket :: rest) ∨
      ∃ lead t record₂ u, Leads first lead ∧ s = lead ++ t ∧
        field.read source room record t = .ok (record₂, u) ∧
        elements source room fields false record₂ u = .ok (record', rest) := by
  rw [elements] at h
  split at h
  · cases h
  next b t hskip =>
  obtain ⟨space, hspace, rfl⟩ := exists_of_skipSpace hskip
  split at h
  · next hb =>
    cases h
    exact .inl ⟨space, hspace, hb ▸ rfl⟩
  simp only at h
  split at h
  · cases h
  next u hstart =>
  split at h
  · cases h
  next record₂ v hvalue =>
  suffices hlead : ∃ lead, Leads first lead ∧ space ++ b :: t = lead ++ u by
    obtain ⟨lead, hlead, heq⟩ := hlead
    exact .inr ⟨lead, u, record₂, v, hlead, heq, hvalue, h⟩
  split at hstart
  · next hfirst =>
    cases hstart
    exact ⟨space, hfirst ▸ .first hspace, rfl⟩
  next hfirst =>
  obtain rfl := Bool.not_eq_true _ ▸ hfirst
  split at hstart
  · next hb =>
    split at hstart
    · cases hstart
    next hskip' =>
    split at hstart <;> cases hstart
    exact hb ▸ exists_leads hspace hskip'
  · cases hstart

/-- What is read of an array is what is left of an array. -/
theorem exists_of_elements (hfields : ∀ field ∈ fields, ∀ record,
      Sound (field.read source room record))
    (h : elements source room fields first record s = .ok (record', rest)) :
    ∃ items bytes, IsItems .square first items bytes ∧ s = bytes ++ rest := by
  have hend {first : Bool} {space : Bytes} (hspace : Blank space) (rest : Bytes) :
      ∃ items bytes, IsItems .square first items bytes ∧
        space ++ closeBracket :: rest = bytes ++ rest :=
    ⟨[], space ++ [closeBracket], .nil hspace, by rw [List.append_assoc]; rfl⟩
  induction fields generalizing first record s with
  | nil =>
    obtain ⟨_, hclose, heq⟩ := map_eq_ok_iff.mp h
    cases heq
    obtain ⟨space, hspace, rfl⟩ := exists_of_endOfArray hclose
    exact hend hspace rest
  | cons field fields ih =>
    obtain ⟨hfield, hfields⟩ := List.forall_mem_cons.mp hfields
    obtain ⟨space, hspace, rfl⟩ | ⟨lead, t, record₂, u, hlead, rfl, hvalue, hrest⟩ :=
      exists_of_elements_cons h
    · exact hend hspace rest
    · obtain ⟨space, value, hspace, hisValue, rfl⟩ := hfield record hvalue
      obtain ⟨items, bytes, hitems, rfl⟩ := ih hfields hrest
      refine ⟨_, _, .cons ((Fronts.square hlead).append_blank hspace) hisValue hitems, ?_⟩
      simp only [List.append_assoc]

namespace Schema

variable {schema : Schema α}

/-- A record is read from an array or object. -/
theorem exists_of_read (hfields : ∀ field ∈ schema.fields, ∀ room record,
      Sound (field.read source room record)) (h : schema.read source room s = .ok (record, rest)) :
    ∃ space bracket items bytes, Blank space ∧ IsItems bracket true items bytes ∧
      s = space ++ bracket.opening :: bytes ++ rest := by
  rw [Schema.read] at h
  split at h
  · cases h
  next b t hskip =>
  obtain ⟨space, hspace, rfl⟩ := exists_of_skipSpace hskip
  split at h
  · next hb =>
    split at h
    · cases h
    obtain ⟨items, bytes, hitems, rfl⟩ :=
      exists_of_elements (fun field hfield => hfields field hfield _) h
    exact ⟨space, .square, items, bytes, hspace, hitems, by rw [hb, List.append_assoc]; rfl⟩
  split at h
  · next hb =>
    split at h
    · cases h
    obtain ⟨items, bytes, hitems, rfl⟩ :=
      exists_of_members (fun field hfield => hfields field hfield _) h
    exact ⟨space, .curly, items, bytes, hspace, hitems, by rw [hb, List.append_assoc]; rfl⟩
  · cases h

theorem sound (hfields : ∀ field ∈ schema.fields, ∀ room record,
    Sound (field.read source room record)) : Sound (schema.read source room) := by
  intro s rest record h
  obtain ⟨space, bracket, items, bytes, hspace, hitems, rfl⟩ := exists_of_read hfields h
  exact ⟨space, bracket.opening :: bytes, hspace, .bracketed hitems, rfl⟩

/-- **What is read as a document is one of the grammar.** -/
theorem isDocument_of_decode (hfields : ∀ field ∈ schema.fields, ∀ room record,
    Sound (field.read source room record)) (h : schema.decode source s = .ok record) :
    IsDocument s := by
  obtain ⟨⟨_, rest⟩, hread, h⟩ := bind_eq_ok_iff.mp h
  obtain ⟨_, hfinish, -⟩ := bind_eq_ok_iff.mp h
  have hblank : Blank rest := by
    rw [finish] at hfinish
    split at hfinish
    · next hskip => exact List.dropWhile_eq_nil_iff.mp hskip
    · cases hfinish
  obtain ⟨space, bracket, items, bytes, hspace, hitems, rfl⟩ := exists_of_read hfields hread
  exact ⟨space, rest, bracket, items, bytes, hspace, hitems, hblank, rfl⟩

end Schema

end Strongbox.Json
