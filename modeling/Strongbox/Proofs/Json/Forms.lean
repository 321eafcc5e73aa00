import Strongbox.Proofs.Json.Local

/-!
# The two forms of a record

A record is written as an object, or as an array of the values of its first few fields. The two
forms are two ways to name the same fields, by a key and by a place, so that both are judged alike,
down to the fault that is told. What is known of objects then holds of arrays as well.

## Main definitions

* `Json.IsArray`: an array of values
* `Json.IsForm`: a record of values for the first few of its fields, in either form
* `Schema.HasNames`: a schema whose fields are told by their names
* `Schema.IsRecord`: a record of members, in either form
* `Json.elementsTail`, `Json.membersTail`: arrays and objects without white space
* `Parts.GivesOtherwise`: a record with a value for one of its parts, and nothing else to find fault
  with

## Main results

* `Json.fromMembers_eq_fromElements`: keys in the order of the fields are places
* `Schema.judge_values`: both forms of a record are judged alike
* `Schema.judge_too_many`: an array with more values than fields is refused
* `Parts.judge_of_gives`: members that give a record are judged to be it
* `Json.isArray_elementsTail`, `Json.isObject_membersTail`: all values stand in an array, and all
  members in an object
* `GivesOtherwise.judge_eq_ok`, `GivesOtherwise.judge_eq_error`: what a value makes of a record
-/

namespace Strongbox.Json

open Text.Utf8 (encode encodeChars)

variable {α : Type} {source : Source} {room : Nat}

/-- An array of values. -/
def IsArray (values : List Bytes) (bytes : Bytes) : Prop :=
  ∃ items rest, IsItems .square true items rest ∧ items.map (·.2) = values ∧
    bytes = openBracket :: rest

theorem IsArray.isValue {values : List Bytes} {bytes : Bytes} (h : IsArray values bytes) :
    IsValue bytes := by
  obtain ⟨items, rest, hitems, -, rfl⟩ := h
  exact .bracketed hitems

/-- What stands in an array or object are values. -/
theorem IsItems.isValue_of_mem {bracket : Bracket} {first : Bool} {items : List (Bytes × Bytes)}
    {bytes : Bytes} (h : IsItems bracket first items bytes) :
    ∀ item ∈ items, IsValue item.2 := by
  induction items generalizing first bytes with
  | nil => exact List.forall_mem_nil _
  | cons item items ih =>
    cases h with
    | cons _ hvalue hitems => exact List.forall_mem_cons.mpr ⟨hvalue, ih hitems⟩

theorem IsArray.ne_null {values : List Bytes} {bytes : Bytes} (h : IsArray values bytes) :
    bytes ≠ encode "null" := by
  obtain ⟨_, _, -, -, rfl⟩ := h
  exact fun heq => absurd (List.cons.inj heq).1 (by decide)

theorem IsObject.isValue {members : List (String × Bytes)} {bytes : Bytes}
    (h : IsObject members bytes) : IsValue bytes := by
  obtain ⟨items, -, hitems⟩ := h
  exact hitems.isValue

theorem IsObject.ne_null {members : List (String × Bytes)} {bytes : Bytes}
    (h : IsObject members bytes) : bytes ≠ encode "null" := by
  obtain ⟨_, -, _, -, rfl⟩ := h
  exact fun heq => absurd (List.cons.inj heq).1 (by decide)

/-- An item of an object that spells a member. -/
def SpellsMember (member : String × Bytes) (item : Bytes × Bytes) : Prop :=
  SpellsText member.1.toList item.1 ∧ member.2 = item.2

/-- Members with their keys as they would be written. -/
def quotedItems (members : List (String × Bytes)) : List (Bytes × Bytes) :=
  members.map fun member => (encodeChars (member.1.toList.flatMap quotedChar), member.2)

theorem spellsMember_quotedItems (members : List (String × Bytes)) :
    List.Forall₂ SpellsMember members (quotedItems members) := by
  induction members with
  | nil => exact .nil
  | cons member members ih => exact .cons ⟨spellsText_quoted _, rfl⟩ ih

/-- The item that spells a member, with those in front of it and behind. -/
theorem exists_of_spellsMember {member : String × Bytes} {before after : List (String × Bytes)}
    {items : List (Bytes × Bytes)}
    (h : List.Forall₂ SpellsMember (before ++ member :: after) items) :
    ∃ front raw rest, items = front ++ (raw, member.2) :: rest ∧
      List.Forall₂ SpellsMember before front ∧ SpellsText member.1.toList raw ∧
      List.Forall₂ SpellsMember after rest := by
  induction before generalizing items with
  | nil =>
    rcases h with _ | @⟨_, ⟨raw, _⟩, _, rest, ⟨hkey, rfl⟩, hrest⟩
    exact ⟨[], raw, rest, rfl, .nil, hkey, hrest⟩
  | cons first before ih =>
    rcases h with _ | @⟨_, item, _, items, hitem, hitems⟩
    obtain ⟨front, raw, rest, rfl, hfront, hkey, hrest⟩ := ih hitems
    exact ⟨item :: front, raw, rest, rfl, .cons hitem hfront, hkey, hrest⟩

theorem IsObject.isValue_of_mem {members : List (String × Bytes)} {bytes : Bytes}
    (h : IsObject members bytes) {member : String × Bytes} (hmem : member ∈ members) :
    IsValue member.2 := by
  obtain ⟨before, after, rfl⟩ := List.append_of_mem hmem
  obtain ⟨items, hitems, rest, hrest, -⟩ := h
  obtain ⟨front, raw, tail, rfl, -⟩ := exists_of_spellsMember hitems
  exact hrest.isValue_of_mem (raw, member.2) (List.mem_append_right _ List.mem_cons_self)

/-! ## Without white space -/

/-- What stands between two elements or members. -/
def separator (first : Bool) : Bytes := if first then [] else [comma]

theorem leads_separator (first : Bool) : Leads first (separator first) := by
  cases first with
  | false =>
    have hnext : Leads false ([] ++ comma :: []) := .next .nil .nil
    exact hnext
  | true => exact .first .nil

/-- What is left of an array. -/
def elementsTail : (first : Bool) → List Bytes → Bytes
  | _, [] => [closeBracket]
  | first, value :: values => separator first ++ value ++ elementsTail false values

/-- What is left of an object. -/
def membersTail : (first : Bool) → List (String × Bytes) → Bytes
  | _, [] => [closeBrace]
  | first, (key, value) :: members =>
    separator first ++ encode (quoted key) ++ [colon] ++ value ++ membersTail false members

/-- **Every list of values stands in an array.** -/
theorem isArray_elementsTail {values : List Bytes} (h : ∀ value ∈ values, IsValue value) :
    IsArray values (openBracket :: elementsTail true values) := by
  have hitems (first : Bool) : IsItems .square first (values.map fun value => ([], value))
      (elementsTail first values) := by
    induction values generalizing first with
    | nil => exact .nil .nil
    | cons value values ih =>
      obtain ⟨hvalue, hvalues⟩ := List.forall_mem_cons.mp h
      exact .cons (.square (leads_separator first)) hvalue (ih hvalues false)
  refine ⟨_, _, hitems true, ?_, rfl⟩
  rw [List.map_map]
  exact List.map_id' values

/-- **Every list of members stands in an object.** -/
theorem isObject_membersTail {members : List (String × Bytes)}
    (h : ∀ member ∈ members, IsValue member.2) :
    IsObject members (openBrace :: membersTail true members) := by
  have hitems (first : Bool) : IsItems .curly first (quotedItems members)
      (membersTail first members) := by
    induction members generalizing first with
    | nil => exact .nil .nil
    | cons member members ih =>
      obtain ⟨hvalue, hmembers⟩ := List.forall_mem_cons.mp h
      have hfront := fronts_quoted (leads_separator first) member.1 .nil .nil
      rw [List.append_nil] at hfront
      exact .cons hfront hvalue (ih hmembers false)
  exact ⟨_, spellsMember_quotedItems members, _, hitems true, rfl⟩

/-! ## Members that are read, and members that are not -/

section

variable {fields : List (Field α)}

/-- What members make of a record, they are judged to make of it. -/
theorem Makes.fromMembers_eq {seen : List String} {record record' : α}
    {items : List (Bytes × Bytes)} (h : Makes fields source room seen record items record') :
    fromMembers fields source room seen record items = .ok record' := by
  induction h with
  | nil => rfl
  | field hkey hfield hseen hvalue _ ih =>
    rw [fromMembers, judge_text source hkey]
    simp only [bind, Except.bind, hfield, if_neg hseen, judge_of_takes hvalue]
    exact ih
  | unknown hkey hfield _ _ ih =>
    rw [fromMembers, judge_text source hkey]
    simp only [bind, Except.bind, hfield]
    exact ih

/-- **A value that its field refuses is what a record is refused for**, if there was nothing wrong
with another value in its place. -/
theorem fromMembers_replace {key : String} {raw value value' : Bytes} {field : Field α}
    {fault : Fault} (hkey : SpellsText key.toList raw)
    (hfield : fields.find? (·.answersTo key) = some field)
    (hvalue : ∀ record, judge (field.read source room record) value' = .error fault)
    {items items' : List (Bytes × Bytes)} {seen : List String} {record result : α}
    (h : fromMembers fields source room seen record (items ++ (raw, value) :: items') =
      .ok result) :
    fromMembers fields source room seen record (items ++ (raw, value') :: items') =
      .error fault := by
  induction items generalizing seen record with
  | nil =>
    rw [List.nil_append, fromMembers, judge_text source hkey] at h ⊢
    simp only [bind, Except.bind, hfield] at h ⊢
    by_cases hseen : field.name ∈ seen
    · simp only [if_pos hseen] at h
      cases h
    · simp only [if_neg hseen, hvalue]
  | cons item items ih =>
    rw [List.cons_append, fromMembers] at h ⊢
    cases hjudge : judge (text source) (item.1 ++ [quote]) with
    | error fault =>
      rw [hjudge] at h
      cases h
    | ok key' =>
      simp only [hjudge, bind, Except.bind] at h ⊢
      cases hfind : fields.find? (·.answersTo key') with
      | none =>
        simp only [hfind] at h
        exact ih h
      | some field' =>
        simp only [hfind] at h ⊢
        by_cases hseen : field'.name ∈ seen
        · simp only [if_pos hseen] at h
          cases h
        simp only [if_neg hseen] at h ⊢
        cases hread : judge (field'.read source room record) item.2 with
        | error fault =>
          simp only [hread] at h
          cases h
        | ok record' =>
          simp only [hread] at h
          exact ih h

end

/-! ## Places and keys -/

section

variable {fields todo : List (Field α)}

/-- **Keys in the order of the fields are places.** -/
theorem fromMembers_eq_fromElements
    (hfind : ∀ field ∈ todo, fields.find? (·.answersTo field.name) = some field)
    (hnodup : (todo.map (·.name)).Nodup) {values : List Bytes} (hlen : values.length ≤ todo.length)
    {items : List (Bytes × Bytes)}
    (hitems : List.Forall₂ SpellsMember ((todo.map (·.name)).zip values) items)
    {seen : List String} (hseen : ∀ field ∈ todo, field.name ∉ seen) (record : α) :
    fromMembers fields source room seen record items =
      fromElements source room todo record values := by
  induction todo generalizing values items seen record with
  | nil =>
    obtain rfl := List.length_eq_zero_iff.mp (Nat.le_zero.mp hlen)
    cases hitems
    rfl
  | cons field todo ih =>
    rcases values with _ | ⟨value, values⟩
    · cases hitems
      rfl
    rw [List.map_cons, List.zip_cons_cons] at hitems
    rcases hitems with _ | @⟨_, ⟨raw, _⟩, _, items, ⟨hkey, rfl⟩, hitems⟩
    obtain ⟨hhead, hfind⟩ := List.forall_mem_cons.mp hfind
    obtain ⟨hheadSeen, hseen⟩ := List.forall_mem_cons.mp hseen
    obtain ⟨hheadNew, hnodup⟩ := List.nodup_cons.mp hnodup
    have hseen' : ∀ field' ∈ todo, field'.name ∉ field.name :: seen := by
      intro field' hfield' hmem
      rcases List.mem_cons.mp hmem with heq | hmem
      · exact hheadNew (List.mem_map.mpr ⟨field', hfield', heq⟩)
      · exact hseen field' hfield' hmem
    rw [fromMembers, fromElements, judge_text source hkey]
    simp only [bind, Except.bind, hhead, if_neg hheadSeen]
    cases judge (field.read source room record) value with
    | error fault => rfl
    | ok record => exact ih hfind hnodup (Nat.le_of_succ_le_succ hlen) hitems hseen' record

/-- There is no field for a value too many, so that it is refused if none in front of it is. -/
theorem fromElements_error {values : List Bytes} (hlen : todo.length < values.length) (record : α) :
    ∃ fault, fromElements source room todo record values = .error fault := by
  induction todo generalizing values record with
  | nil =>
    obtain ⟨value, values, rfl⟩ := List.exists_cons_of_length_pos hlen
    exact ⟨.trailingCharacters, rfl⟩
  | cons field todo ih =>
    rcases values with _ | ⟨value, values⟩
    · exact absurd hlen (Nat.not_lt_zero _)
    rw [fromElements]
    cases judge (field.read source room record) value with
    | error fault => exact ⟨fault, rfl⟩
    | ok record => exact ih (Nat.lt_of_succ_lt_succ hlen) record

end

/-- A record of values for the first few of its fields, as an array of them or as an object. -/
def IsForm (names : List String) (values : List Bytes) (bytes : Bytes) : Prop :=
  IsArray values bytes ∨ IsObject (names.zip values) bytes

theorem IsForm.isValue {names : List String} {values : List Bytes} {bytes : Bytes}
    (h : IsForm names values bytes) : IsValue bytes := by
  rcases h with harray | hobject
  · exact harray.isValue
  · exact hobject.isValue

theorem IsForm.ne_null {names : List String} {values : List Bytes} {bytes : Bytes}
    (h : IsForm names values bytes) : bytes ≠ encode "null" := by
  rcases h with harray | hobject
  · exact harray.ne_null
  · exact hobject.ne_null

namespace Schema

variable {schema : Schema α}

/-- The names of the fields. -/
def names (schema : Schema α) : List String := schema.fields.map (·.name)

theorem length_names (schema : Schema α) : schema.names.length = schema.fields.length :=
  List.length_map _

/-- A schema whose fields are told by their names. -/
structure HasNames (schema : Schema α) : Prop where
  /-- A name belongs to its field. -/
  find : ∀ field ∈ schema.fields, schema.fields.find? (·.answersTo field.name) = some field
  /-- No two fields have one name. -/
  nodup : schema.names.Nodup

/-- A record of members, as an object, or as an array if they are those of the first few fields. -/
def IsRecord (schema : Schema α) (members : List (String × Bytes)) (bytes : Bytes) : Prop :=
  IsObject members bytes ∨ ∃ values, values.length ≤ schema.names.length ∧
    members = schema.names.zip values ∧ IsArray values bytes

/-- Items that spell the members of the first few fields make of a record what their values make of
it in an array. -/
theorem fromMembers_of_values (hnames : schema.HasNames) {values : List Bytes}
    (hlen : values.length ≤ schema.names.length) {items : List (Bytes × Bytes)}
    (hitems : List.Forall₂ SpellsMember (schema.names.zip values) items) :
    fromMembers schema.fields source room [] schema.initial items =
      fromElements source room schema.fields schema.initial values := by
  rw [length_names] at hlen
  exact fromMembers_eq_fromElements hnames.find hnames.nodup hlen hitems
    (fun _ _ => List.not_mem_nil) _

theorem IsRecord.isValue {members : List (String × Bytes)} {bytes : Bytes}
    (h : schema.IsRecord members bytes) : IsValue bytes := by
  rcases h with hobject | ⟨values, -, -, harray⟩
  · exact hobject.isValue
  · exact harray.isValue

/-- The members of a record hold values. -/
theorem IsRecord.isValue_of_mem {members : List (String × Bytes)} {bytes : Bytes}
    (h : schema.IsRecord members bytes) {member : String × Bytes} (hmem : member ∈ members) :
    IsValue member.2 := by
  rcases h with hobject | ⟨values, -, rfl, items, rest, hitems, rfl, -⟩
  · exact hobject.isValue_of_mem hmem
  · obtain ⟨key, value⟩ := member
    obtain ⟨item, hitem, rfl⟩ := List.mem_map.mp (List.of_mem_zip hmem).2
    exact hitems.isValue_of_mem item hitem

theorem IsRecord.ne_null {members : List (String × Bytes)} {bytes : Bytes}
    (h : schema.IsRecord members bytes) : bytes ≠ encode "null" := by
  rcases h with hobject | ⟨values, -, -, harray⟩
  · exact hobject.ne_null
  · exact harray.ne_null

section

variable (hfields : ∀ field ∈ schema.fields, ∀ room record,
  IsLocal (field.read source room record))

include hfields

theorem judge_array {values : List Bytes} {bytes : Bytes} (h : IsArray values bytes) :
    judge (schema.read source (room + 1)) bytes =
      fromElements source room schema.fields schema.initial values := by
  obtain ⟨items, rest, hitems, rfl, rfl⟩ := h
  exact judge_of_forall fun space rest hspace _ => read_array hfields hitems hspace rest

/-- An array with more values than there are fields is refused. -/
theorem judge_too_many {values : List Bytes} {bytes : Bytes}
    (hlen : schema.names.length < values.length) (h : IsArray values bytes) :
    ∃ fault, judge (schema.read source (room + 1)) bytes = .error fault := by
  rw [length_names] at hlen
  rw [judge_array hfields h]
  exact fromElements_error hlen schema.initial

theorem exists_judge_object {members : List (String × Bytes)} {bytes : Bytes}
    (h : IsObject members bytes) : ∃ items, List.Forall₂ SpellsMember members items ∧
      judge (schema.read source (room + 1)) bytes =
        fromMembers schema.fields source room [] schema.initial items := by
  obtain ⟨items, hspells, rest, hitems, rfl⟩ := h
  exact ⟨items, hspells,
    judge_of_forall fun space rest hspace _ => read_object hfields hitems hspace rest⟩

variable (hnames : schema.HasNames)

include hnames

/-- A record is judged by its members, in either form. -/
theorem exists_judge_record {members : List (String × Bytes)} {bytes : Bytes}
    (h : schema.IsRecord members bytes) : ∃ items, List.Forall₂ SpellsMember members items ∧
      judge (schema.read source (room + 1)) bytes =
        fromMembers schema.fields source room [] schema.initial items := by
  rcases h with hobject | ⟨values, hlen, rfl, harray⟩
  · exact exists_judge_object hfields hobject
  · have hitems := spellsMember_quotedItems (schema.names.zip values)
    refine ⟨_, hitems, ?_⟩
    rw [judge_array hfields harray, fromMembers_of_values hnames hlen hitems]

/-- **Both forms of a record are judged alike**: what the values of the first few fields make of it
is the same in an array and in an object. -/
theorem judge_values {values : List Bytes} {bytes : Bytes}
    (hlen : values.length ≤ schema.names.length) (h : IsForm schema.names values bytes) :
    judge (schema.read source (room + 1)) bytes =
      fromElements source room schema.fields schema.initial values := by
  rcases h with harray | hobject
  · exact judge_array hfields harray
  · obtain ⟨items, hitems, hjudge⟩ := exists_judge_object hfields hobject
    rw [hjudge, fromMembers_of_values hnames hlen hitems]

end

end Schema

/-- Members give another record with another value for one of its parts, if every other part can be
given as it was. -/
theorem Gives.replace {ι : Type} {part? : String → Option ι} {Shows Shows' : ι → Bytes → Prop}
    {Due Due' : ι → Prop} {before after : List (String × Bytes)} {key : String}
    {value value' : Bytes} {i : ι} (h : Gives part? Shows Due (before ++ (key, value) :: after))
    (hkey : part? key = some i) (hvalue : Shows' i value')
    (hshows : ∀ j ≠ i, ∀ bytes, Shows j bytes → Shows' j bytes)
    (hdue : ∀ j ≠ i, Due' j → Due j) :
    Gives part? Shows' Due' (before ++ (key, value') :: after) := by
  have hgiven (value : Bytes) : given part? (before ++ (key, value) :: after) =
      given part? before ++ i :: given part? after := by
    have hcons : given part? ((key, value) :: after) = i :: given part? after :=
      given_cons_some hkey after
    rw [← hcons]
    exact List.filterMap_append
  obtain ⟨hshown, hother, honce, hcomplete⟩ := h
  rw [hgiven] at honce hcomplete
  obtain ⟨-, hcons, hdisjoint⟩ := List.nodup_append'.mp honce
  have hbefore : i ∉ given part? before := fun hi => hdisjoint hi List.mem_cons_self
  have hafter : i ∉ given part? after := (List.nodup_cons.mp hcons).1
  have hmem {members : List (String × Bytes)} {member : String × Bytes} {j : ι}
      (hmember : member ∈ members) (hj : part? member.1 = some j) : j ∈ given part? members :=
    List.mem_filterMap.mpr ⟨member, hmember, hj⟩
  obtain ⟨hshownBefore, hshownAfter⟩ := List.forall_mem_append.mp hshown
  obtain ⟨hotherBefore, hotherAfter⟩ := List.forall_mem_append.mp hother
  refine ⟨List.forall_mem_append.mpr ⟨?_, List.forall_mem_cons.mpr ⟨?_, ?_⟩⟩,
    List.forall_mem_append.mpr ⟨hotherBefore, List.forall_mem_cons.mpr ⟨?_, ?_⟩⟩, ?_, ?_⟩
  · intro member hmember j hj
    refine hshows j ?_ _ (hshownBefore member hmember j hj)
    rintro rfl
    exact hbefore (hmem hmember hj)
  · intro j hj
    obtain rfl := Option.some.inj (hj.symm.trans hkey)
    exact hvalue
  · intro member hmember j hj
    refine hshows j ?_ _ (hshownAfter member (List.mem_cons_of_mem _ hmember) j hj)
    rintro rfl
    exact hafter (hmem hmember hj)
  · intro hnone
    cases hnone.symm.trans hkey
  · exact fun member hmember => hotherAfter member (List.mem_cons_of_mem _ hmember)
  · rw [hgiven]
    exact honce
  · intro j hj
    rw [hgiven]
    by_cases hji : j = i
    · rw [hji]
      exact List.mem_append_right _ List.mem_cons_self
    · exact hcomplete j (hdue j hji hj)

namespace Parts

variable {ι : Type} {schema : Schema α} (parts : Parts schema ι) {Shows : ι → Bytes → Prop}
  {Due : ι → Prop} {members : List (String × Bytes)} {value bytes : Bytes} {i : ι}

/-- A record with a value for one of its parts, whose members give a record once `null` stands in
the place of the value. -/
def GivesOtherwise (Shows : ι → Bytes → Prop) (Due : ι → Prop) (i : ι) (value bytes : Bytes) :
    Prop :=
  ∃ before key after, parts.part? key = some i ∧
    Gives parts.part? Shows Due (before ++ (key, encode "null") :: after) ∧
    schema.IsRecord (before ++ (key, value) :: after) bytes

variable {parts} in
theorem GivesOtherwise.isValue (h : parts.GivesOtherwise Shows Due i value bytes) :
    IsValue bytes := by
  obtain ⟨_, _, _, -, -, hrecord⟩ := h
  exact hrecord.isValue

variable {parts} in
theorem GivesOtherwise.ne_null (h : parts.GivesOtherwise Shows Due i value bytes) :
    bytes ≠ encode "null" := by
  obtain ⟨_, _, _, -, -, hrecord⟩ := h
  exact hrecord.ne_null

variable {parts} in
theorem GivesOtherwise.isValue_value (h : parts.GivesOtherwise Shows Due i value bytes) :
    IsValue value := by
  obtain ⟨before, key, after, -, -, hrecord⟩ := h
  have hmem : (key, value) ∈ before ++ (key, value) :: after :=
    List.mem_append_right _ List.mem_cons_self
  exact hrecord.isValue_of_mem hmem

variable (hfields : ∀ field ∈ schema.fields, ∀ room record,
    IsLocal (field.read source room record)) (hnames : schema.HasNames) (only : List ι → α)
  {record : α} (hnone : only [] = schema.initial)

include hfields hnames hnone

/-- **Members that give a record are judged to be it**, in either form. -/
theorem judge_of_gives (hstep : ∀ seen i bytes, Shows i bytes →
      Takes ((parts.field i).read source room (only seen)) bytes (only (i :: seen)))
    (hall : ∀ seen, (∀ i, Due i → i ∈ seen) → only seen = record)
    (hgives : Gives parts.part? Shows Due members) (h : schema.IsRecord members bytes) :
    judge (schema.read source (room + 1)) bytes = .ok record := by
  obtain ⟨items, hitems, hjudge⟩ := Schema.exists_judge_record hfields hnames h
  rw [hjudge]
  exact (parts.makes_of_gives only hnone hstep hall hgives hitems).fromMembers_eq

variable {parts} in
/-- A record is read with the value that its part is given. -/
theorem GivesOtherwise.judge_eq_ok (h : parts.GivesOtherwise Shows Due i value bytes)
    (hstep : ∀ seen, ∀ j ≠ i, ∀ bytes, Shows j bytes →
      Takes ((parts.field j).read source room (only seen)) bytes (only (j :: seen)))
    (hvalue : ∀ seen, Takes ((parts.field i).read source room (only seen)) value (only (i :: seen)))
    (hall : ∀ seen, i ∈ seen → (∀ j ≠ i, Due j → j ∈ seen) → only seen = record) :
    judge (schema.read source (room + 1)) bytes = .ok record := by
  obtain ⟨before, key, after, hkey, hgives, hrecord⟩ := h
  let Shows' (j : ι) (bytes : Bytes) : Prop := (j = i ∧ bytes = value) ∨ (j ≠ i ∧ Shows j bytes)
  have hgives' : Gives parts.part? Shows' (fun j => j = i ∨ Due j)
      (before ++ (key, value) :: after) :=
    hgives.replace hkey (.inl ⟨rfl, rfl⟩) (fun j hj _ hshows => .inr ⟨hj, hshows⟩)
      fun j hj hdue => hdue.resolve_left hj
  refine parts.judge_of_gives hfields hnames only hnone ?_ ?_ hgives' hrecord
  · rintro seen j bytes (⟨rfl, rfl⟩ | ⟨hj, hshows⟩)
    · exact hvalue seen
    · exact hstep seen j hj bytes hshows
  · intro seen hseen
    exact hall seen (hseen i (.inl rfl)) fun j hj hdue => hseen j (.inr hdue)

variable {parts} in
/-- **A record is refused for a value that its part refuses.** -/
theorem GivesOtherwise.judge_eq_error {fault : Fault}
    (h : parts.GivesOtherwise Shows Due i value bytes)
    (hstep : ∀ seen i bytes, Shows i bytes →
      Takes ((parts.field i).read source room (only seen)) bytes (only (i :: seen)))
    (hall : ∀ seen, (∀ i, Due i → i ∈ seen) → only seen = record)
    (hvalue : ∀ record, judge ((parts.field i).read source room record) value = .error fault) :
    judge (schema.read source (room + 1)) bytes = .error fault := by
  obtain ⟨before, key, after, hkey, hgives, hrecord⟩ := h
  obtain ⟨items, hitems, hjudge⟩ := Schema.exists_judge_record hfields hnames hrecord
  rw [hjudge]
  obtain ⟨front, raw, rest, rfl, hfront, hraw, hrest⟩ := exists_of_spellsMember hitems
  have hitem : SpellsMember (key, encode "null") (raw, encode "null") := ⟨hraw, rfl⟩
  have hread := parts.makes_of_gives only hnone hstep hall hgives
    (List.rel_append hfront (.cons hitem hrest))
  exact fromMembers_replace hraw (by rw [parts.find?_eq, hkey]; rfl) hvalue hread.fromMembers_eq

end Parts

end Strongbox.Json
