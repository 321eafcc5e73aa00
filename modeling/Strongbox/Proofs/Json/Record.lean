import Strongbox.Json.Record
import Strongbox.Proofs.Json.Tree

/-!
# Records read back from every spelling

A reader takes a document for a value if it gives that value for every spelling of the document,
and leaves what comes after it. A record is read member by member: each goes into the field its key
belongs to or is walked over, so that the record that is read follows from what the readers of the
fields take the values for.

## Main definitions

* `Json.Takes`, `Json.Reads`: a reader takes a byte string, or a document, for a value
* `Json.Makes`: members that turn a record into another one
* `Json.Fills`: documents of members that do

## Main results

* `Json.takes_string`, `Json.takes_digitBytes`, `Takes.nullable`, `Takes.refined`: the values of
  fields
* `Makes.members_eq`: the members of an object
* `Schema.takes`, `Schema.reads`: records
* `Json.document_of_takes`: whole documents
-/

namespace Strongbox.Json

open Text.Utf8 (encode)

/-- A reader takes a byte string for a value, whatever white space comes in front of it, and reads
no further. -/
def Takes {α : Type} (read : Reader α) (bytes : Bytes) (value : α) : Prop :=
  ∀ ⦃space rest : Bytes⦄, Blank space → Closes rest →
    read (space ++ bytes ++ rest) = .ok (value, rest)

/-- A reader takes a document for a value, however the document is spelled. -/
def Reads {α : Type} (read : Reader α) (document : Document) (value : α) : Prop :=
  ∀ ⦃bytes : Bytes⦄, Spells document bytes → Takes read bytes value

/-! ## The values of fields -/

/-- A byte string starts as a string, a whole number or an object does. -/
def Begins (bytes : Bytes) : Prop :=
  ∃ b rest, bytes = b :: rest ∧ (b = quote ∨ isDigit b = true ∨ b = openBrace)

theorem Spells.begins {document : Document} {bytes : Bytes} (h : Spells document bytes) :
    Begins bytes := h.exists_cons

/-- White space in front of a value is all that is left out. -/
theorem Begins.skipSpace {space bytes : Bytes} (h : Begins bytes) (hspace : Blank space)
    (rest : Bytes) : Json.skipSpace (space ++ bytes ++ rest) = bytes ++ rest := by
  obtain ⟨b, tail, rfl, hb⟩ := h
  have hnotSpace : isSpace b = false := by
    rcases hb with rfl | hdigit | rfl
    · rfl
    · refine Bool.eq_false_iff.mpr fun hspace => ?_
      rcases isSpace_iff.mp hspace with rfl | rfl | rfl | rfl <;> exact absurd hdigit (by decide)
    · rfl
  rw [List.append_assoc, skipSpace_append hspace, List.cons_append, skipSpace_cons hnotSpace]

theorem begins_string (raw : Bytes) : Begins (quote :: (raw ++ [quote])) :=
  ⟨quote, _, rfl, .inl rfl⟩

theorem begins_digitBytes (n : Nat) : Begins (digitBytes n) := by
  cases hds : digitBytes n with
  | nil => exact absurd hds (digitBytes_ne_nil n)
  | cons b rest =>
    exact ⟨b, rest, rfl, .inr (.inl (isDigit_of_mem_digitBytes (hds ▸ List.mem_cons_self)))⟩

theorem takes_string (source : Source) {s : String} {raw : Bytes} (h : SpellsText s.toList raw) :
    Takes (string source) (quote :: (raw ++ [quote])) s := by
  intro space rest hspace _
  rw [string, (begins_string raw).skipSpace hspace, List.cons_append, List.append_assoc]
  exact text_of_spells h source rest

theorem natural_of_wholeNumber {source : Source} {room : Nat} {n : UInt32} {s rest : Bytes}
    (h : wholeNumber source room s = .ok (n.toNat, rest)) :
    natural source room s = .ok (n, rest) := by
  rw [natural, h]
  simp only [if_pos n.toNat_lt_size]
  exact congrArg (fun m => Except.ok (m, rest)) UInt32.ofNat_toNat

theorem takes_digitBytes (source : Source) (room : Nat) (n : UInt32) :
    Takes (natural source room) (digitBytes n.toNat) n := by
  intro space rest hspace hrest
  apply natural_of_wholeNumber
  rw [wholeNumber, (begins_digitBytes n.toNat).skipSpace hspace]
  have hnumber := number_digitBytes
    (Nat.lt_trans n.toNat_lt_size (by decide : UInt32.size < UInt64.size)) hrest
  cases hds : digitBytes n.toNat with
  | nil => exact absurd hds (digitBytes_ne_nil _)
  | cons b tail =>
    have hdigit : isDigit b = true := isDigit_of_mem_digitBytes (hds ▸ List.mem_cons_self)
    have hquote : b ≠ quote := by
      rintro rfl
      exact absurd hdigit (by decide)
    rw [hds] at hnumber
    simp only [List.cons_append] at hnumber ⊢
    rw [if_neg hquote, if_pos (.inr hdigit), hnumber]

/-- A string that spells a number is taken for the number. -/
theorem takes_spelledNatural (source : Source) (room : Nat) {n : UInt32} {s : String} {raw : Bytes}
    (h : SpellsText s.toList raw) (hnumber : spelledNatural? s = some n.toNat) :
    Takes (natural source room) (quote :: (raw ++ [quote])) n := by
  intro space rest hspace _
  apply natural_of_wholeNumber
  rw [wholeNumber, (begins_string raw).skipSpace hspace, List.cons_append, List.append_assoc]
  simp only [if_true, List.singleton_append, text_of_spells h source rest, hnumber]

section

variable {α β : Type} {read : Reader α} {bytes : Bytes} {value : α}

/-- A value that is stored somewhere. -/
theorem Takes.map (h : Takes read bytes value) (store : α → β) :
    Takes (fun s => (read s).map fun (value, rest) => (store value, rest)) bytes (store value) := by
  intro space rest hspace hrest
  show (read _).map _ = _
  rw [h hspace hrest]
  rfl

theorem takes_null (read : Reader α) : Takes (nullable read) (encode "null") none := by
  intro space rest hspace _
  have hnull : encode "null" = 0x6E :: ofNull := by decide
  rw [nullable, hnull, List.append_assoc, skipSpace_append hspace, List.cons_append,
    skipSpace_cons rfl]
  simp only [if_true, word_append]
  rfl

/-- A value that is not `null`. -/
theorem Takes.nullable (h : Takes read bytes value) (hbytes : Begins bytes) :
    Takes (Json.nullable read) bytes (some value) := by
  intro space rest hspace hrest
  have hread := h Blank.nil hrest
  rw [Json.nullable, hbytes.skipSpace hspace]
  obtain ⟨b, tail, rfl, hb⟩ := hbytes
  have hnull : b ≠ 0x6E := by
    rintro rfl
    exact absurd hb (by decide)
  simp only [List.nil_append, List.cons_append] at hread ⊢
  rw [if_neg hnull, hread]
  rfl

/-- A value that something else is made of. -/
theorem Takes.refined {made : β} {make : α → Except String β} (h : Takes read bytes value)
    (hmake : make value = .ok made) : Takes (Json.refined read make) bytes made := by
  intro space rest hspace hrest
  rw [Json.refined, h hspace hrest]
  simp only [hmake]

end

/-! ## The documents of fields -/

theorem reads_string (source : Source) (s : String) : Reads (string source) (.string s) s := by
  intro bytes hbytes
  cases hbytes with
  | string =>
    rw [encode_quoted]
    exact takes_string source (spellsText_quoted s.toList)

theorem reads_natural (source : Source) (room : Nat) (n : UInt32) :
    Reads (natural source room) (.number n.toNat) n := by
  intro bytes hbytes
  cases hbytes with
  | number => exact takes_digitBytes source room n

section

variable {α β : Type} {read : Reader α} {document : Document} {value : α}

theorem Reads.map (h : Reads read document value) (store : α → β) :
    Reads (fun s => (read s).map fun (value, rest) => (store value, rest)) document
      (store value) :=
  fun _ hbytes => (h hbytes).map store

/-- No document is `null`. -/
theorem Reads.nullable (h : Reads read document value) :
    Reads (Json.nullable read) document (some value) :=
  fun _ hbytes => (h hbytes).nullable hbytes.begins

theorem Reads.refined {made : β} {make : α → Except String β} (h : Reads read document value)
    (hmake : make value = .ok made) : Reads (Json.refined read make) document made :=
  fun _ hbytes => (h hbytes).refined hmake

end

/-! ## Objects -/

/-- What comes in front of a key is left out, whatever the key is. -/
theorem memberKey_lead {source : Source} {first : Bool} {lead : Bytes} (hlead : Leads first lead)
    (s : Bytes) : memberKey source first (lead ++ quote :: s) =
      (text source s).map fun (key, rest) => (some key, rest) := by
  cases hlead with
  | first h =>
    rw [memberKey, skipSpace_append h, skipSpace_cons rfl]
    simp only [if_true]
    rw [if_neg (by decide)]
  | @next before after h h' =>
    have hkey : (Care.strict source 0).nextKey (after ++ quote :: s) = .ok s := by
      rw [Care.nextKey, skipSpace_append h', skipSpace_cons rfl]
      exact if_pos rfl
    rw [memberKey, List.append_assoc, skipSpace_append h, List.cons_append, skipSpace_cons rfl]
    simp only [Bool.false_eq_true, if_false]
    rw [if_neg (by decide), if_true, hkey]

/-- The key of a member is read with all that comes in front of it. -/
theorem memberKey_append {source : Source} {first : Bool} {lead raw : Bytes}
    (hlead : Leads first lead) {key : String} (hkey : SpellsText key.toList raw) (s : Bytes) :
    memberKey source first (lead ++ quote :: (raw ++ quote :: s)) = .ok (some key, s) := by
  rw [memberKey_lead hlead, text_of_spells hkey]
  rfl

theorem memberKey_end {source : Source} {first : Bool} {space : Bytes} (h : Blank space)
    (rest : Bytes) : memberKey source first (space ++ closeBrace :: rest) = .ok (none, rest) := by
  rw [memberKey, skipSpace_append h, skipSpace_cons rfl]
  exact if_pos rfl

variable {α : Type} {fields : List (Field α)} {source : Source} {room : Nat}

/-- What is done with the members of an object, one after the other: a member goes into the field
its key belongs to, unless that was given before, or is walked over. -/
theorem members_eq_bind (first : Bool) (seen : List String) (record : α) (s : Bytes) :
    members fields source room first seen record s =
      memberKey source first s >>= fun p =>
        match p.1 with
        | none => .ok (record, p.2)
        | some key =>
          match fields.find? (·.answersTo key) with
          | none => afterColon p.2 >>= fun t =>
              walk .lax t >>= members fields source room false seen record
          | some field =>
            if field.name ∈ seen then .error (.duplicateField field.name)
            else afterColon p.2 >>= fun t => field.read source room record t >>= fun q =>
              members fields source room false (field.name :: seen) q.1 q.2 := by
  rw [members]
  split
  · next h => rw [h]; rfl
  · next h => rw [h]; rfl
  next key t h =>
  rw [h]
  simp only [bind, Except.bind]
  cases hfind : fields.find? (·.answersTo key) with
  | none =>
    dsimp only
    split
    · next h => rw [h]
    next h =>
    rw [h]
    dsimp only
    split <;> (next h => rw [h])
  | some field =>
    dsimp only
    congr 1
    split
    · next h => rw [h]
    next h =>
    rw [h]
    dsimp only
    split <;> (next h => rw [h])

/-- At the end of an object the record is done. -/
theorem members_of_end {first : Bool} {seen : List String} {record : α} {s rest : Bytes}
    (hkey : memberKey source first s = .ok (none, rest)) :
    members fields source room first seen record s = .ok (record, rest) := by
  rw [members_eq_bind, hkey]
  rfl

theorem members_of_fault {first : Bool} {seen : List String} {record : α} {s : Bytes}
    {fault : Fault} (hkey : memberKey source first s = .error fault) :
    members fields source room first seen record s = .error fault := by
  rw [members_eq_bind, hkey]
  rfl

theorem members_of_key {first : Bool} {seen : List String} {record : α} {key : String}
    {s s₁ s₂ : Bytes} (hkey : memberKey source first s = .ok (some key, s₁))
    (hcolon : afterColon s₁ = .ok s₂) :
    members fields source room first seen record s =
      match fields.find? (·.answersTo key) with
      | none => walk .lax s₂ >>= members fields source room false seen record
      | some field =>
        if field.name ∈ seen then .error (.duplicateField field.name)
        else field.read source room record s₂ >>= fun p =>
          members fields source room false (field.name :: seen) p.1 p.2 := by
  rw [members_eq_bind, hkey]
  simp only [bind, Except.bind, hcolon]

/-- A member goes into the field its key belongs to. -/
theorem members_of_field {first : Bool} {seen : List String} {record record' : α} {key : String}
    {field : Field α} {s s₁ s₂ s₃ : Bytes} (hkey : memberKey source first s = .ok (some key, s₁))
    (hfield : fields.find? (·.answersTo key) = some field) (hseen : field.name ∉ seen)
    (hcolon : afterColon s₁ = .ok s₂)
    (hvalue : field.read source room record s₂ = .ok (record', s₃)) :
    members fields source room first seen record s =
      members fields source room false (field.name :: seen) record' s₃ := by
  rw [members_of_key hkey hcolon, hfield]
  simp only [if_neg hseen, hvalue]
  rfl

/-- A member that is no field is walked over. -/
theorem members_of_unknown {first : Bool} {seen : List String} {record : α} {key : String}
    {s s₁ s₂ s₃ : Bytes} (hkey : memberKey source first s = .ok (some key, s₁))
    (hfield : fields.find? (·.answersTo key) = none) (hcolon : afterColon s₁ = .ok s₂)
    (hvalue : walk .lax s₂ = .ok s₃) :
    members fields source room first seen record s =
      members fields source room false seen record s₃ := by
  rw [members_of_key hkey hcolon, hfield, hvalue]
  rfl

/-- Members that turn a record into another one, as they are written: their keys belong to different
fields, none of them in `seen`, or to none. -/
inductive Makes (fields : List (Field α)) (source : Source) (room : Nat) :
    (seen : List String) → α → List (Bytes × Bytes) → α → Prop where
  | nil {seen : List String} {record : α} : Makes fields source room seen record [] record
  | field {seen : List String} {record record' record'' : α} {key : String} {raw value : Bytes}
    {items : List (Bytes × Bytes)} {field : Field α} (hkey : SpellsText key.toList raw)
    (hfield : fields.find? (·.answersTo key) = some field) (hseen : field.name ∉ seen)
    (hvalue : Takes (field.read source room record) value record')
    (hrest : Makes fields source room (field.name :: seen) record' items record'') :
    Makes fields source room seen record ((raw, value) :: items) record''
  | unknown {seen : List String} {record record' : α} {key : String} {raw value : Bytes}
    {items : List (Bytes × Bytes)} (hkey : SpellsText key.toList raw)
    (hfield : fields.find? (·.answersTo key) = none) (hvalue : IsValue value)
    (hrest : Makes fields source room seen record items record') :
    Makes fields source room seen record ((raw, value) :: items) record'

variable {seen : List String} {record record' : α}

/-- **The members of an object are read into the record they make**, up to the end of the
object. -/
theorem Makes.members_eq {items : List (Bytes × Bytes)}
    (h : Makes fields source room seen record items record') {first : Bool} {bytes : Bytes}
    (hbytes : IsItems .curly first items bytes) (rest : Bytes) :
    members fields source room first seen record (bytes ++ rest) = .ok (record', rest) := by
  -- along the members, all but the first of which have a comma in front of them
  induction h generalizing first bytes with
  | nil =>
    cases hbytes with
    | nil hspace =>
      rw [List.append_assoc]
      exact members_of_end (memberKey_end hspace rest)
  | field hkey hfield hseen hvalue _ ih =>
    cases hbytes with
    | cons hfront _ hitems =>
      cases hfront with
      | curly hlead _ hbefore hafter =>
        have hread := hvalue hafter (hitems.closes rest)
        simp only [List.append_assoc, List.cons_append] at hread ⊢
        rw [members_of_field (memberKey_append hlead hkey _) hfield hseen
          (afterColon_append hbefore _) hread]
        exact ih hitems
  | unknown hkey hfield hvalue _ ih =>
    cases hbytes with
    | cons hfront _ hitems =>
      cases hfront with
      | curly hlead _ hbefore hafter =>
        have hwalk := hvalue.walk_append hafter (hitems.closes rest)
        simp only [List.append_assoc, List.cons_append] at hwalk ⊢
        rw [members_of_unknown (memberKey_append hlead hkey _) hfield
          (afterColon_append hbefore _) hwalk]
        exact ih hitems

/-- Documents of members that turn a record into another one, none of them for a field in `seen`. -/
inductive Fills (fields : List (Field α)) (source : Source) (room : Nat) :
    (seen : List String) → α → List (String × Document) → α → Prop where
  | nil {seen : List String} {record : α} : Fills fields source room seen record [] record
  | cons {seen : List String} {record record' record'' : α} {key : String} {value : Document}
    {members : List (String × Document)} {field : Field α}
    (hfield : fields.find? (·.answersTo key) = some field) (hseen : field.name ∉ seen)
    (hvalue : Reads (field.read source room record) value record')
    (hrest : Fills fields source room (field.name :: seen) record' members record'') :
    Fills fields source room seen record ((key, value) :: members) record''

namespace Fills

variable {ms : List (String × Document)}

/-- However the documents are spelled, they are members that make the record. -/
theorem exists_makes (h : Fills fields source room seen record ms record') {first : Bool}
    {bytes : Bytes} (hbytes : SpellsMembers first ms bytes) :
    ∃ items, IsItems .curly first items bytes ∧
      Makes fields source room seen record items record' := by
  induction h generalizing first bytes with
  | nil =>
    cases hbytes with
    | nil hspace => exact ⟨[], .nil hspace, .nil⟩
  | @cons _ _ _ _ key _ _ _ hfield hseen hvalue _ ih =>
    cases hbytes with
    | cons hlead hbefore hafter hspells hmembers =>
      obtain ⟨items, hitems, hmakes⟩ := ih hmembers
      rw [member_eq]
      exact ⟨_, .cons (fronts_quoted hlead key hbefore hafter) hspells.isValue hitems,
        .field (spellsText_quoted key.toList) hfield hseen (hvalue hspells) hmakes⟩

/-- With fewer fields given before, the same members make the same record. -/
theorem mono (h : Fills fields source room seen record ms record') {seen' : List String}
    (hsub : seen' ⊆ seen) : Fills fields source room seen' record ms record' := by
  induction h generalizing seen' with
  | nil => exact .nil
  | cons hfield hseen hvalue _ ih =>
    exact .cons hfield (fun h => hseen (hsub h)) hvalue (ih (List.cons_subset_cons _ hsub))

/-- A member that is left out if it has no value: without it the record is as it was. -/
theorem member? {β : Type} {key : String} {write : β → Document} {value : Option β}
    {field : Field α} {store : Option β → α}
    (hfield : fields.find? (·.answersTo key) = some field) (hseen : field.name ∉ seen)
    (hnone : store none = record)
    (hvalue : ∀ v, Reads (field.read source room record) (write v) (store (some v)))
    (hrest : Fills fields source room (field.name :: seen) (store value) ms record') :
    Fills fields source room seen record (Document.member? key write value ++ ms) record' := by
  cases value with
  | none => exact hnone ▸ hrest.mono (List.subset_cons_self _ _)
  | some v => exact .cons hfield hseen (hvalue v) hrest

end Fills

/-! ## Whole records -/

variable {schema : Schema α} {ms : List (String × Document)}

/-- **A record is read from every object whose members make it.** -/
theorem Schema.takes {items : List (Bytes × Bytes)} {bytes : Bytes}
    (h : Makes schema.fields source room [] schema.initial items record)
    (hbytes : IsItems .curly true items bytes) :
    Takes (schema.read source (room + 1)) (openBrace :: bytes) record := by
  intro space rest hspace _
  have hbegins : Begins (openBrace :: bytes) := ⟨openBrace, bytes, rfl, .inr (.inr rfl)⟩
  rw [Schema.read, hbegins.skipSpace hspace]
  simp only [List.cons_append]
  rw [if_neg (by decide), if_true, if_neg (Nat.succ_ne_zero room)]
  exact h.members_eq hbytes rest

/-- A record is read from every spelling of an object whose members make it. -/
theorem Schema.reads (h : Fills schema.fields source room [] schema.initial ms record) :
    Reads (schema.read source (room + 1)) (.object ms) record := by
  intro bytes hbytes
  cases hbytes with
  | object hmembers =>
    obtain ⟨items, hitems, hmakes⟩ := h.exists_makes hmembers
    exact Schema.takes hmakes hitems

/-- A document that is read may have white space around it. -/
theorem document_of_takes {read : Reader α} {value : α} {before bytes after : Bytes}
    (h : Takes read bytes value) (hbefore : Blank before) (hafter : Blank after) :
    document read (before ++ bytes ++ after) = .ok value := by
  have hfinish : finish after = .ok () := by
    have hskip := skipSpace_append hafter []
    rw [List.append_nil] at hskip
    rw [finish, hskip]
    rfl
  simp only [document, bind, Except.bind, h hbefore hafter.closes, hfinish]
  rfl

end Strongbox.Json
