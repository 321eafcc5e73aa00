import Mathlib.Data.List.Forall2
import Mathlib.Data.List.Nodup
import Strongbox.Proofs.Json.Record
import Strongbox.Proofs.Json.Sound

/-!
# Objects in any order

The members of an object give a record if each part of it is given at most once and as it is, and no
part is left out that has to be given. Neither their order matters nor how their keys are spelled,
nor how many others come between them. An object that gives a part twice gives no record at all,
whatever the values are: the reader gets no further than the second of the two.

## Main definitions

* `Json.Alone`: a value with white space around it
* `Json.IsObject`: an object with the given members
* `Json.Gives`: members that give a record part by part
* `Json.GivesTwice`: an object that gives a part more than once
* `Json.Parts`: the parts of the records of a schema
* `Json.WasRead`: a value that a reader made something of

## Main results

* `Parts.takes`: an object that gives a record is read as the record
* `Json.read_of_members`: how the members of an object were read
* `Parts.not_givesTwice`: an object that is read gives no part twice
-/

namespace Strongbox.Json

/-! ## What stands in an object -/

/-- A value of some kind with nothing but white space around it. -/
def Alone (IsKind : Bytes → Prop) (s : Bytes) : Prop :=
  ∃ before value after, Blank before ∧ IsKind value ∧ Blank after ∧ s = before ++ value ++ after

theorem alone_self {IsKind : Bytes → Prop} {value : Bytes} (h : IsKind value) :
    Alone IsKind value :=
  ⟨[], value, [], .nil, h, .nil, by rw [List.nil_append, List.append_nil]⟩

theorem Alone.imp {IsKind IsKind' : Bytes → Prop} {s : Bytes} (h : Alone IsKind s)
    (himp : ∀ value, IsKind value → IsKind' value) : Alone IsKind' s := by
  obtain ⟨before, value, after, hbefore, hvalue, hafter, hs⟩ := h
  exact ⟨before, value, after, hbefore, himp value hvalue, hafter, hs⟩

/-- An object with the given members, keys and values as they are written. -/
def HasItems (items : List (Bytes × Bytes)) (bytes : Bytes) : Prop :=
  ∃ rest, IsItems .curly true items rest ∧ bytes = openBrace :: rest

theorem HasItems.isValue {items : List (Bytes × Bytes)} {bytes : Bytes} (h : HasItems items bytes) :
    IsValue bytes := by
  obtain ⟨rest, hrest, rfl⟩ := h
  exact .bracketed hrest

/-- An object with the given members, their keys spelled in any way. -/
def IsObject (members : List (String × Bytes)) (bytes : Bytes) : Prop :=
  ∃ items, List.Forall₂ (fun member item => SpellsText member.1.toList item.1 ∧ member.2 = item.2)
    members items ∧ HasItems items bytes

section

variable {ι : Type} (part? : String → Option ι)

/-- The parts of a record that members give, in their order. -/
def given (members : List (String × Bytes)) : List ι :=
  members.filterMap fun member => part? member.1

variable {part?} in
theorem given_cons_none {member : String × Bytes} (h : part? member.1 = none)
    (members : List (String × Bytes)) : given part? (member :: members) = given part? members :=
  List.filterMap_cons_none h

variable {part?} in
theorem given_cons_some {member : String × Bytes} {i : ι} (h : part? member.1 = some i)
    (members : List (String × Bytes)) :
    given part? (member :: members) = i :: given part? members :=
  List.filterMap_cons_some h

/-- Members that give a record. `part?` says which part of it a key stands for, `Shows` as what a
part may be given, and `Due` which parts may not be left out. -/
structure Gives (Shows : ι → Bytes → Prop) (Due : ι → Prop) (members : List (String × Bytes)) :
    Prop where
  /-- Each part that is given is given as it is. -/
  shown : ∀ member ∈ members, ∀ i, part? member.1 = some i → Shows i member.2
  /-- Every other member holds some value. -/
  other : ∀ member ∈ members, part? member.1 = none → IsValue member.2
  /-- No part is given twice. -/
  once : (given part? members).Nodup
  /-- No part is missing. -/
  complete : ∀ i, Due i → i ∈ given part? members

/-- A part that may be left out is what stands in for it, if it was. -/
theorem ite_of_due [DecidableEq ι] {Due : ι → Prop} {seen : List ι} (h : ∀ i, Due i → i ∈ seen)
    {β : Type} {i : ι} {value standIn : β} (hdue : Due i ↔ value ≠ standIn) :
    (if i ∈ seen then value else standIn) = value := by
  by_cases hi : i ∈ seen
  · exact if_pos hi
  · rw [if_neg hi]
    by_contra hne
    exact hi (h i (hdue.mpr (Ne.symm hne)))

/-- An object that gives a part twice, under one name or two. -/
def GivesTwice (bytes : Bytes) : Prop :=
  ∃ items key key' raw raw' value value' i, HasItems items bytes ∧
    [(raw, value), (raw', value')].Sublist items ∧
    SpellsText key.toList raw ∧ part? key = some i ∧
    SpellsText key'.toList raw' ∧ part? key' = some i

variable {part?} in
theorem GivesTwice.exists_hasItems {bytes : Bytes} (h : GivesTwice part? bytes) :
    ∃ items, HasItems items bytes := by
  obtain ⟨items, _, _, _, _, _, _, _, hitems, -⟩ := h
  exact ⟨items, hitems⟩

end

/-! ## Records of parts -/

theorem not_answersTo {α : Type} {field : Field α} {key : String} (hname : key ≠ field.name)
    (haliases : key ∉ field.aliases) : ¬field.answersTo key = true := by
  rw [Field.answersTo, Bool.or_eq_true, decide_eq_true_eq, List.contains_iff_mem]
  exact fun h => h.elim (fun h => hname h.symm) haliases

/-- The parts of the records of a schema: each is a field, and the keys of the field are those that
stand for the part. -/
structure Parts {α : Type} (schema : Schema α) (ι : Type) where
  /-- The part a key stands for. -/
  part? : String → Option ι
  /-- The field of a part. -/
  field : ι → Field α
  /-- A key belongs to the field of the part it stands for. -/
  find?_eq : ∀ key, schema.fields.find? (·.answersTo key) = (part? key).map field
  /-- No two parts have one field. -/
  name_injective : ∀ i j, (field i).name = (field j).name → i = j

namespace Parts

variable {α ι : Type} {schema : Schema α} (parts : Parts schema ι) {source : Source} {room : Nat}
  {Shows : ι → Bytes → Prop} {Due : ι → Prop}

/-- Members that give a record make it. While they are read, the record has the parts that were
seen so far, which is `only` of them. -/
theorem makes_only {only : List ι → α} (hstep : ∀ seen i bytes, Shows i bytes →
      Takes ((parts.field i).read source room (only seen)) bytes (only (i :: seen)))
    {ms : List (String × Bytes)} {items : List (Bytes × Bytes)}
    (hitems : List.Forall₂ (fun m item => SpellsText m.1.toList item.1 ∧ m.2 = item.2) ms items)
    (hshown : ∀ m ∈ ms, ∀ i, parts.part? m.1 = some i → Shows i m.2)
    (hother : ∀ m ∈ ms, parts.part? m.1 = none → IsValue m.2) :
    ∀ seen : List ι, ((given parts.part? ms).reverse ++ seen).Nodup →
      Makes schema.fields source room (seen.map fun i => (parts.field i).name) (only seen) items
        (only ((given parts.part? ms).reverse ++ seen)) := by
  induction hitems with
  | nil => exact fun _ _ => .nil
  | @cons m item ms items hspells _ ih =>
    obtain ⟨key, value⟩ := m
    obtain ⟨raw, _⟩ := item
    obtain ⟨hkey, rfl⟩ := hspells
    obtain ⟨hshownHere, hshown⟩ := List.forall_mem_cons.mp hshown
    obtain ⟨hotherHere, hother⟩ := List.forall_mem_cons.mp hother
    have hfind := parts.find?_eq key
    intro seen hnodup
    cases hpart : parts.part? key with
    | none =>
      rw [hpart] at hfind
      rw [given_cons_none hpart] at hnodup ⊢
      exact .unknown hkey hfind (hotherHere hpart) (ih hshown hother seen hnodup)
    | some i =>
      rw [hpart] at hfind
      rw [given_cons_some hpart, List.reverse_cons, List.append_assoc,
        List.singleton_append] at hnodup ⊢
      have hi : i ∉ seen := (List.nodup_cons.mp (List.nodup_append.mp hnodup).2.1).1
      have hname : (parts.field i).name ∉ seen.map fun i => (parts.field i).name := by
        intro hmem
        obtain ⟨j, hj, heq⟩ := List.mem_map.mp hmem
        exact hi (parts.name_injective j i heq ▸ hj)
      exact .field hkey hfind hname (hstep seen i value (hshownHere i hpart))
        (ih hshown hother (i :: seen) hnodup)

/-- Members that give a record make it, if its parts are read one by one. -/
theorem makes_of_gives (only : List ι → α) {record : α} (hnone : only [] = schema.initial)
    (hstep : ∀ seen i bytes, Shows i bytes →
      Takes ((parts.field i).read source room (only seen)) bytes (only (i :: seen)))
    (hall : ∀ seen, (∀ i, Due i → i ∈ seen) → only seen = record)
    {ms : List (String × Bytes)} {items : List (Bytes × Bytes)}
    (hgives : Gives parts.part? Shows Due ms)
    (hitems : List.Forall₂ (fun m item => SpellsText m.1.toList item.1 ∧ m.2 = item.2) ms items) :
    Makes schema.fields source room [] schema.initial items record := by
  have hmakes := parts.makes_only hstep hitems hgives.shown hgives.other [] (by
    rw [List.append_nil]
    exact List.nodup_reverse.mpr hgives.once)
  rwa [hnone, hall _ fun i hi => by
    rw [List.append_nil]
    exact List.mem_reverse.mpr (hgives.complete i hi)] at hmakes

/-- **An object that gives a record is read as the record**, if its parts are read one by one. -/
theorem takes (only : List ι → α) {record : α} (hnone : only [] = schema.initial)
    (hstep : ∀ seen i bytes, Shows i bytes →
      Takes ((parts.field i).read source room (only seen)) bytes (only (i :: seen)))
    (hall : ∀ seen, (∀ i, Due i → i ∈ seen) → only seen = record)
    {members : List (String × Bytes)} {bytes : Bytes}
    (hgives : Gives parts.part? Shows Due members) (hobject : IsObject members bytes) :
    Takes (schema.read source (room + 1)) bytes record := by
  obtain ⟨items, hitems, rest, hrest, rfl⟩ := hobject
  exact Schema.takes (parts.makes_of_gives only hnone hstep hall hgives hitems) hrest

end Parts

/-! ## How the members of an object were read -/

/-- The end of a key does not depend on how it is read. -/
theorem text_rest_unique {source : Source} {raw t u : Bytes} {key : String} (h : IsContents raw)
    (htext : text source (raw ++ quote :: t) = .ok (key, u)) : u = t := by
  obtain ⟨raw', hraw', heq⟩ := exists_of_text htext
  have hskip : skipText (raw ++ quote :: t) = .ok t := skipText_eq_ok_iff.mpr ⟨raw, h, rfl⟩
  rw [skipText_eq_ok_iff.mpr ⟨raw', hraw', heq⟩] at hskip
  exact Except.ok.inj hskip

theorem closes_of_memberKey {source : Source} {s rest : Bytes} {key : Option String}
    (h : memberKey source false s = .ok (key, rest)) : Closes s := by
  rw [memberKey] at h
  split at h
  · cases h
  next b t hskip =>
  obtain ⟨space, hspace, rfl⟩ := exists_of_skipSpace hskip
  split at h
  · next hb => exact hb ▸ closes_append hspace (by decide) t
  rw [if_neg Bool.false_ne_true] at h
  split at h
  · next hb => exact hb ▸ closes_append hspace (by decide) t
  · cases h

variable {α : Type} {fields : List (Field α)} {source : Source} {room : Nat}

theorem closes_of_members {seen : List String} {record record' : α} {s rest : Bytes}
    (h : members fields source room false seen record s = .ok (record', rest)) : Closes s := by
  rw [members] at h
  split at h
  · cases h
  · next hkey => exact closes_of_memberKey hkey
  · next hkey => exact closes_of_memberKey hkey

/-- A value was read by a reader, with what came in front of it and behind. -/
def WasRead {β : Type} (read : Reader β) (value : Bytes) : Prop :=
  ∃ space rest rest' result, Blank space ∧ read (space ++ value ++ rest) = .ok (result, rest')

/-- A key, as it is written, belongs to a field. -/
def BelongsTo (fields : List (Field α)) (raw : Bytes) (field : Field α) : Prop :=
  ∃ key : String, SpellsText key.toList raw ∧ fields.find? (·.answersTo key) = some field

/-- A member as it is read, from its key on. -/
theorem member_append (lead raw before after value tail rest : Bytes) :
    lead ++ quote :: (raw ++ quote :: (before ++ colon :: after)) ++ value ++ tail ++ rest =
      lead ++ quote :: (raw ++ quote :: (before ++ colon :: (after ++ value ++
        (tail ++ rest)))) := by
  simp only [List.append_assoc, List.cons_append]

/-- The key of a member that was read: the field that the key, as it is written, belongs to is the
one that was looked for. -/
theorem exists_key_of_members {first : Bool} {seen : List String} {record record' : α}
    {lead raw s rest : Bytes} (hlead : Leads first lead) (hraw : IsContents raw)
    (h : members fields source room first seen record (lead ++ quote :: (raw ++ quote :: s)) =
      .ok (record', rest)) :
    ∃ key, memberKey source first (lead ++ quote :: (raw ++ quote :: s)) = .ok (some key, s) ∧
      ∀ field, BelongsTo fields raw field → fields.find? (·.answersTo key) = some field := by
  rw [members_eq_bind, memberKey_lead hlead] at h
  obtain ⟨_, hkey, -⟩ := bind_eq_ok_iff.mp h
  obtain ⟨⟨key, t⟩, htext, -⟩ := map_eq_ok_iff.mp hkey
  obtain rfl := text_rest_unique hraw htext
  refine ⟨key, ?_, ?_⟩
  · rw [memberKey_lead hlead, htext]
    rfl
  · rintro field ⟨key', hkey', hfield⟩
    rw [text_of_spells hkey'] at htext
    obtain ⟨rfl, -⟩ := Prod.mk.inj (Except.ok.inj htext)
    exact hfield

/-- How one member of an object was read: it belongs to no field and was left out, or the field it
belongs to was not seen before and read its value. -/
theorem read_of_member (hfields : ∀ field ∈ fields, ∀ record,
      Sound (field.read source room record)) {first : Bool} {seen : List String}
    {record record' : α} {raw front value tail rest rest' : Bytes} {items : List (Bytes × Bytes)}
    (hfront : Fronts .curly first raw front) (hvalue : IsValue value)
    (hitems : IsItems .curly false items tail)
    (h : members fields source room first seen record (front ++ value ++ tail ++ rest) =
      .ok (record', rest')) :
    ((∀ field, ¬BelongsTo fields raw field) ∧
      members fields source room false seen record (tail ++ rest) = .ok (record', rest')) ∨
    ∃ field record₂, (∀ field', BelongsTo fields raw field' → field' = field) ∧
      field.name ∉ seen ∧ (∃ record, WasRead (field.read source room record) value) ∧
      members fields source room false (field.name :: seen) record₂ (tail ++ rest) =
        .ok (record', rest') := by
  cases hfront with
  | @curly _ lead _ before after hlead hraw hbefore hafter =>
  rw [member_append] at h
  obtain ⟨key, hkey, hfound⟩ := exists_key_of_members hlead hraw h
  rw [members_of_key hkey (afterColon_append hbefore _)] at h
  split at h
  · next hfind =>
    obtain ⟨u, hwalk, h⟩ := bind_eq_ok_iff.mp h
    rw [hvalue.walk_append hafter (hitems.closes rest)] at hwalk
    obtain rfl := Except.ok.inj hwalk
    refine .inl ⟨fun field hbelongs => ?_, h⟩
    cases hfind.symm.trans (hfound field hbelongs)
  · next field hfind =>
    split at h
    · cases h
    next hseen =>
    obtain ⟨⟨record₂, u⟩, hread, h⟩ := bind_eq_ok_iff.mp h
    -- the field read its value to the end, since something that can follow a value comes next
    obtain ⟨space', value', hspace', hvalue', heq⟩ :=
      hfields field (List.mem_of_find?_eq_some hfind) record hread
    obtain rfl := hvalue.rest_unique hafter hspace' hvalue' (hitems.closes rest)
      (closes_of_members h) heq
    refine .inr ⟨field, record₂, fun field' hbelongs => ?_, hseen,
      ⟨record, after, tail ++ rest, _, record₂, hafter, hread⟩, h⟩
    exact Option.some.inj ((hfound field' hbelongs).symm.trans hfind)

/-- What an object that was read had as its members: the values of fields were read by them, and the
names of the fields differ from those seen before and from each other. -/
theorem read_of_members (hfields : ∀ field ∈ fields, ∀ record,
      Sound (field.read source room record)) {first : Bool} {seen : List String}
    {record record' : α} {items : List (Bytes × Bytes)} {bytes rest rest' : Bytes}
    (hitems : IsItems .curly first items bytes)
    (h : members fields source room first seen record (bytes ++ rest) = .ok (record', rest')) :
    (∀ item ∈ items, ∀ field, BelongsTo fields item.1 field →
      field.name ∉ seen ∧ ∃ record, WasRead (field.read source room record) item.2) ∧
    items.Pairwise fun item item' => ∀ field field', BelongsTo fields item.1 field →
      BelongsTo fields item'.1 field' → field.name ≠ field'.name := by
  induction items generalizing first seen record bytes with
  | nil => exact ⟨List.forall_mem_nil _, .nil⟩
  | cons item items ih =>
    cases hitems with
    | cons hfront hvalue hitems =>
    obtain ⟨hnone, h⟩ | ⟨field, record₂, hfield, hseen, hread, h⟩ :=
      read_of_member hfields hfront hvalue hitems h
    · obtain ⟨hmem, hpairwise⟩ := ih hitems h
      refine ⟨List.forall_mem_cons.mpr ⟨?_, hmem⟩, .cons ?_ hpairwise⟩
      · exact fun field hbelongs => absurd hbelongs (hnone field)
      · exact fun _ _ field _ hbelongs => absurd hbelongs (hnone field)
    · obtain ⟨hmem, hpairwise⟩ := ih hitems h
      refine ⟨List.forall_mem_cons.mpr ⟨?_, ?_⟩, .cons ?_ hpairwise⟩
      · intro field' hbelongs
        rw [hfield field' hbelongs]
        exact ⟨hseen, hread⟩
      · intro item hitem field' hbelongs
        exact (hmem item hitem field' hbelongs).imp_left
          fun hnot hin => hnot (List.mem_cons_of_mem _ hin)
      · intro item hitem field₁ field₂ hbelongs₁ hbelongs₂ heq
        obtain ⟨hnot, -⟩ := hmem item hitem field₂ hbelongs₂
        rw [hfield field₁ hbelongs₁] at heq
        exact hnot (heq ▸ List.mem_cons_self)

/-! ## Objects that are not read -/

/-- How an object was read. -/
theorem read_of_object {schema : Schema α} (hfields : ∀ field ∈ schema.fields, ∀ room record,
      Sound (field.read source room record)) {items : List (Bytes × Bytes)} {bytes : Bytes}
    (hitems : HasItems items bytes) (h : WasRead (schema.read source room) bytes) :
    (∀ item ∈ items, ∀ field, BelongsTo schema.fields item.1 field →
      ∃ room record, WasRead (field.read source room record) item.2) ∧
    items.Pairwise fun item item' => ∀ field field', BelongsTo schema.fields item.1 field →
      BelongsTo schema.fields item'.1 field' → field.name ≠ field'.name := by
  obtain ⟨members, hmembers, rfl⟩ := hitems
  obtain ⟨space, rest, rest', record, hspace, h⟩ := h
  have hskip : skipSpace (space ++ openBrace :: members ++ rest) =
      openBrace :: (members ++ rest) := (IsValue.bracketed hmembers).skipSpace hspace rest
  rw [Schema.read, hskip] at h
  simp only at h
  rw [if_neg (by decide), if_true] at h
  split at h
  · cases h
  · obtain ⟨hmem, hpairwise⟩ :=
      read_of_members (fun field hfield => hfields field hfield _) hmembers h
    exact ⟨fun item hitem field hbelongs => ⟨_, (hmem item hitem field hbelongs).2⟩, hpairwise⟩

theorem Parts.belongsTo {ι : Type} {schema : Schema α} (parts : Parts schema ι) {key : String}
    {raw : Bytes} {i : ι} (hkey : SpellsText key.toList raw) (hpart : parts.part? key = some i) :
    BelongsTo schema.fields raw (parts.field i) := by
  refine ⟨key, hkey, ?_⟩
  rw [parts.find?_eq, hpart]
  rfl

/-- **An object that is read gives no part twice.** -/
theorem Parts.not_givesTwice {ι : Type} {schema : Schema α} (parts : Parts schema ι)
    (hfields : ∀ field ∈ schema.fields, ∀ room record, Sound (field.read source room record))
    {bytes : Bytes} (h : WasRead (schema.read source room) bytes) :
    ¬GivesTwice parts.part? bytes := by
  rintro ⟨items, key, key', raw, raw', value, value', i, hitems, hsub, hkey, hpart, hkey', hpart'⟩
  have hpairwise := (read_of_object hfields hitems h).2.sublist hsub
  have hne := List.rel_of_pairwise_cons hpairwise List.mem_cons_self
  exact hne _ _ (parts.belongsTo hkey hpart) (parts.belongsTo hkey' hpart') rfl

section

variable {β : Type} {read : Reader β} {IsKind : Bytes → Prop} {data : Bytes}

/-- Values of a kind that a reader takes for one result are documents of that result. -/
theorem document_of_alone {result : β} (hread : ∀ bytes, IsKind bytes → Takes read bytes result)
    (h : Alone IsKind data) : document read data = .ok result := by
  obtain ⟨before, value, after, hbefore, hvalue, hafter, rfl⟩ := h
  exact document_of_takes (hread value hvalue) hbefore hafter

/-- Values of a kind that a reader does not read are no documents. -/
theorem document_error_of_alone (hread : ∀ bytes, WasRead read bytes → ¬IsKind bytes)
    (h : Alone IsKind data) : ∃ fault, document read data = .error fault := by
  obtain ⟨before, value, after, hbefore, hvalue, -, rfl⟩ := h
  cases hdocument : document read (before ++ value ++ after) with
  | error fault => exact ⟨fault, rfl⟩
  | ok result =>
    obtain ⟨⟨_, rest⟩, hresult, -⟩ := bind_eq_ok_iff.mp hdocument
    exact absurd hvalue (hread value ⟨before, after, rest, _, hbefore, hresult⟩)

end

end Strongbox.Json
