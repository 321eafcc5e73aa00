import Strongbox.Proofs.Json.Forms

/-!
# Records inside of records

A record may be the value of a field of another record, where one bracket more is open around it.
What it is read as is the same there, since a value that is read has no brackets in it but its own;
and the record around it has, for the field, what the field made of it.

## Main definitions

* `Json.NeedsNoRoom`: a reader to whose results it does not matter how many brackets may be open

## Main results

* `Schema.judge_of_room`: records that are read with some room are read with any
* `Json.get_of_fromMembers`: what a record has for a field is what the field made of its member
-/

namespace Strongbox.Json

/-! ## Room for brackets -/

/-- A reader that reads what it reads however many brackets may be open. -/
def NeedsNoRoom {α : Type} (read : Nat → Reader α) : Prop :=
  ∀ ⦃room : Nat⦄ ⦃s : Bytes⦄ ⦃result : α × Bytes⦄, read room s = .ok result →
    ∀ room', read room' s = .ok result

section

variable {α β : Type} {read : Nat → Reader α}

theorem needsNoRoom_const (read : Reader α) : NeedsNoRoom fun _ => read := fun _ _ _ h _ => h

theorem NeedsNoRoom.map (h : NeedsNoRoom read) (store : α → β) :
    NeedsNoRoom fun room s => (read room s).map fun (value, rest) => (store value, rest) := by
  intro room s result hread room'
  obtain ⟨value, hvalue, rfl⟩ := map_eq_ok_iff.mp hread
  exact map_eq_ok_iff.mpr ⟨value, h hvalue room', rfl⟩

theorem NeedsNoRoom.nullable (h : NeedsNoRoom read) :
    NeedsNoRoom fun room => Json.nullable (read room) := by
  intro room s result hread room'
  beta_reduce at hread ⊢
  rw [Json.nullable] at hread ⊢
  split at hread
  · cases hread
  split at hread
  · next hnull => rwa [if_pos hnull]
  · next hnull =>
    obtain ⟨value, hvalue, rfl⟩ := map_eq_ok_iff.mp hread
    rw [if_neg hnull]
    exact map_eq_ok_iff.mpr ⟨value, h hvalue room', rfl⟩

theorem NeedsNoRoom.judge (h : NeedsNoRoom read) {room : Nat} {value : Bytes} {result : α}
    (hread : judge (read room) value = .ok result) (room' : Nat) :
    Json.judge (read room') value = .ok result := by
  obtain ⟨p, hp, rfl⟩ := map_eq_ok_iff.mp hread
  exact map_eq_ok_iff.mpr ⟨p, h hp room', rfl⟩

end

/-- Where brackets are looked into, a whole number is refused. -/
theorem needsNoRoom_wholeNumber (source : Source) : NeedsNoRoom (wholeNumber source) := by
  intro room s result hread room'
  rw [wholeNumber] at hread ⊢
  split at hread
  · cases hread
  split at hread
  · next hquote => rwa [if_pos hquote]
  · next hquote =>
    rw [if_neg hquote]
    split at hread
    · next hnumber => rwa [if_pos hnumber]
    · split at hread <;> cases hread

theorem needsNoRoom_natural (source : Source) : NeedsNoRoom (natural source) := by
  intro room s result hread room'
  rw [natural_eq] at hread ⊢
  obtain ⟨p, hp, hwhole⟩ := bind_eq_ok_iff.mp hread
  exact bind_eq_ok_iff.mpr ⟨p, needsNoRoom_wholeNumber source hp room', hwhole⟩

/-! ## Records -/

section

variable {α : Type} {fields : List (Field α)} {source : Source} {room : Nat} {record result : α}

section

variable (hroom : ∀ field ∈ fields, ∀ record,
  NeedsNoRoom fun room => field.read source room record)

include hroom

theorem fromElements_of_room {values : List Bytes}
    (h : fromElements source room fields record values = .ok result) (room' : Nat) :
    fromElements source room' fields record values = .ok result := by
  induction fields generalizing record values with
  | nil => cases values <;> exact h
  | cons field fields ih =>
    obtain ⟨hfield, hfields⟩ := List.forall_mem_cons.mp hroom
    cases values with
    | nil => exact h
    | cons value values =>
      obtain ⟨next, hnext, h⟩ := bind_eq_ok_iff.mp h
      exact bind_eq_ok_iff.mpr ⟨next, (hfield record).judge hnext room', ih hfields h⟩

theorem fromMembers_of_room {seen : List String} {items : List (Bytes × Bytes)}
    (h : fromMembers fields source room seen record items = .ok result) (room' : Nat) :
    fromMembers fields source room' seen record items = .ok result := by
  induction items generalizing seen record with
  | nil => exact h
  | cons item items ih =>
    obtain ⟨key, hkey, h⟩ := bind_eq_ok_iff.mp h
    refine bind_eq_ok_iff.mpr ⟨key, hkey, ?_⟩
    cases hfind : fields.find? (·.answersTo key) with
    | none =>
      simp only [hfind] at h ⊢
      exact ih h
    | some field =>
      simp only [hfind] at h ⊢
      split at h
      · cases h
      next hseen =>
      rw [if_neg hseen]
      obtain ⟨next, hnext, h⟩ := bind_eq_ok_iff.mp h
      have hfield := hroom field (List.mem_of_find?_eq_some hfind) record
      exact bind_eq_ok_iff.mpr ⟨next, hfield.judge hnext room', ih h⟩

end

/-- **Records that are read with some room are read with any**, if the values of their fields
are. -/
theorem Schema.judge_of_room {schema : Schema α} (hfields : ∀ field ∈ schema.fields,
      ∀ room record, IsLocal (field.read source room record))
    (hroom : ∀ field ∈ schema.fields, ∀ record,
      NeedsNoRoom fun room => field.read source room record)
    {value : Bytes} (hvalue : IsValue value)
    (h : judge (schema.read source (room + 1)) value = .ok result) (room' : Nat) :
    judge (schema.read source (room' + 1)) value = .ok result := by
  obtain ⟨b, tail, rfl, -⟩ := hvalue.exists_cons
  by_cases harray : b = openBracket
  · subst harray
    have hopening : IsValue (Bracket.square.opening :: tail) := hvalue
    obtain ⟨items, hitems⟩ := hopening.of_opening
    have hvalues : IsArray (items.map (·.2)) (openBracket :: tail) :=
      ⟨items, tail, hitems, rfl, rfl⟩
    rw [judge_array hfields hvalues] at h ⊢
    exact fromElements_of_room hroom h room'
  by_cases hobject : b = openBrace
  · subst hobject
    have hopening : IsValue (Bracket.curly.opening :: tail) := hvalue
    obtain ⟨items, hitems⟩ := hopening.of_opening
    have hjudge (room : Nat) : judge (schema.read source (room + 1)) (openBrace :: tail) =
        fromMembers schema.fields source room [] schema.initial items :=
      judge_of_forall fun space rest hspace _ => read_object hfields hitems hspace rest
    rw [hjudge] at h ⊢
    exact fromMembers_of_room hroom h room'
  · have hskip := hvalue.skipSpace Blank.nil []
    rw [List.nil_append, List.append_nil] at hskip
    rw [judge, Schema.read, hskip] at h
    simp only [if_neg harray, if_neg hobject] at h
    cases h

/-! ## What a field made of its member -/

variable {field : Field α} {γ : Type} (get : α → γ)
  (hkeep : ∀ field' ∈ fields, field'.name ≠ field.name → ∀ record value next,
    judge (field'.read source room record) value = .ok next → get next = get record)

include hkeep

/-- What a field stores is not touched once the field was given. -/
theorem get_of_fromMembers_of_mem {seen : List String} (hseen : field.name ∈ seen)
    {items : List (Bytes × Bytes)}
    (h : fromMembers fields source room seen record items = .ok result) :
    get result = get record := by
  induction items generalizing seen record with
  | nil =>
    cases h
    rfl
  | cons item items ih =>
    obtain ⟨key, -, h⟩ := bind_eq_ok_iff.mp h
    cases hfind : fields.find? (·.answersTo key) with
    | none =>
      simp only [hfind] at h
      exact ih hseen h
    | some field' =>
      simp only [hfind] at h
      split at h
      · cases h
      next hnew =>
      obtain ⟨next, hnext, h⟩ := bind_eq_ok_iff.mp h
      have hne : field'.name ≠ field.name := fun heq => hnew (heq ▸ hseen)
      rw [ih (List.mem_cons_of_mem _ hseen) h]
      exact hkeep field' (List.mem_of_find?_eq_some hfind) hne _ _ _ hnext

/-- **What a record has for a field is what the field made of its member.** -/
theorem get_of_fromMembers {key : String} {raw value : Bytes} (hkey : SpellsText key.toList raw)
    (hfield : fields.find? (·.answersTo key) = some field) {seen : List String}
    {front rest : List (Bytes × Bytes)}
    (h : fromMembers fields source room seen record (front ++ (raw, value) :: rest) = .ok result) :
    ∃ record next, judge (field.read source room record) value = .ok next ∧
      get result = get next := by
  induction front generalizing seen record with
  | nil =>
    rw [List.nil_append, fromMembers, judge_text source hkey] at h
    obtain ⟨key', hkey', h⟩ := bind_eq_ok_iff.mp h
    obtain rfl := Except.ok.inj hkey'
    simp only [hfield] at h
    split at h
    · cases h
    · obtain ⟨next, hnext, h⟩ := bind_eq_ok_iff.mp h
      exact ⟨record, next, hnext, get_of_fromMembers_of_mem get hkeep List.mem_cons_self h⟩
  | cons item front ih =>
    obtain ⟨key', -, h⟩ := bind_eq_ok_iff.mp h
    cases hfind : fields.find? (·.answersTo key') with
    | none =>
      simp only [hfind] at h
      exact ih h
    | some field' =>
      simp only [hfind] at h
      split at h
      · cases h
      · obtain ⟨next, -, h⟩ := bind_eq_ok_iff.mp h
        exact ih h

end

end Strongbox.Json
