import Mathlib.Data.List.Basic
import Strongbox.Command.Files

/-!
# Files after one is written

A file is written into a directory that is there already, so that every place on the way to it
stays a directory and every other place stays as it is. A path that led somewhere before leads there
afterwards.

## Main definitions

* `Files.step`, `Files.locateAt`: one name on the way of a path, and where the path that a text
  spells leads
* `Files.HasWay`: all places on the way to a place are directories

## Main results

* `Files.entry?_put_of_ne`: other places stay as they are
* `Files.entry?_of_writeAt_of_ne`: what the path does not lead to stays as it is
* `Files.readAt_of_writeAt`: what was written is read back
* `Files.readAt_of_writeAt_of_ne`: what was not written is read as before
-/

namespace Strongbox.Command.Files

/-- One name on the way. -/
def step (files : Files) (place : Place) (name : String) : Except FileFault Place := do
  (← files.directory place).child name

theorem locate_eq (files : Files) (path : Path) :
    files.locate path = path.names.foldlM files.step path.start := rfl

/-- Where the path that a text spells leads. -/
def locateAt (files : Files) (path : String) : Except FileFault Place := do
  files.locate (← Path.ofString path)

variable {files files' : Files} {place other : Place} {data : Bytes}

/-! ## Directories -/

/-- Every place on the way to a directory is one. -/
theorem isDirectory_of_isPrefix (h : files.isDirectory place = true) (hother : other <+: place) :
    files.isDirectory other = true := by
  rw [isDirectory, Bool.or_eq_true] at h ⊢
  rcases h with h | h
  · refine .inl (List.all_eq_true.mpr fun name hname => ?_)
    exact List.all_eq_true.mp h name (hother.subset hname)
  · obtain ⟨file, hfile, hbelow⟩ := List.any_eq_true.mp h
    rw [Bool.and_eq_true, List.isPrefixOf_iff_prefix, decide_eq_true_eq] at hbelow
    obtain ⟨hup, hne⟩ := hbelow
    have hlt : place.length < file.1.length :=
      Nat.lt_of_le_of_ne hup.length_le fun hlen => hne (hup.eq_of_length hlen).symm
    refine .inr (List.any_eq_true.mpr ⟨file, hfile, ?_⟩)
    rw [Bool.and_eq_true, List.isPrefixOf_iff_prefix, decide_eq_true_eq]
    refine ⟨hother.trans hup, fun heq => ?_⟩
    rw [heq] at hlt
    exact absurd hother.length_le (Nat.not_le_of_lt hlt)

/-- All places on the way to a place are directories. -/
def HasWay (files : Files) (place : Place) : Prop :=
  ∀ ⦃other⦄, other <+: place → other ≠ place → files.isDirectory other = true

theorem directory_eq_ok_iff {above : Place} :
    files.directory place = .ok above ↔ above = place ∧ files.entry? place = some .directory := by
  rw [directory]
  split
  · next h => simp [h, eq_comm]
  · next h => simp [h]
  · next h => simp [h]

theorem step_eq_ok_iff {name : String} {next : Place} :
    files.step place name = .ok next ↔
      files.entry? place = some .directory ∧ place.child name = .ok next := by
  simp only [step, bind, Except.bind]
  split
  · next hfault =>
    refine ⟨nofun, fun h => ?_⟩
    rw [directory_eq_ok_iff.mpr ⟨rfl, h.1⟩] at hfault
    cases hfault
  · next above habove =>
    obtain ⟨rfl, hentry⟩ := directory_eq_ok_iff.mp habove
    exact (and_iff_right hentry).symm

theorem isDirectory_of_entry? (h : files.entry? place = some .directory) :
    files.isDirectory place = true := by
  unfold entry? at h
  split at h
  · cases h
  · by_contra hdirectory
    rw [if_neg hdirectory] at h
    cases h

/-- One level up from a directory, and on the way there, is nothing but directories. -/
theorem isDirectory_of_isPrefix_parent (h : files.isDirectory place = true)
    (hother : other <+: place.parent) : files.isDirectory other = true := by
  rw [Place.parent] at hother
  split at hother
  · exact isDirectory_of_isPrefix h (hother.trans (List.dropLast_prefix place))
  next hout =>
  have hall : place.all leadsOut = true := by simpa using hout
  rw [isDirectory, Bool.or_eq_true]
  refine .inl (List.all_eq_true.mpr fun name hname => ?_)
  split at hother
  · exact List.all_eq_true.mp (rfl : Place.root.all leadsOut = true) name (hother.subset hname)
  · rcases List.mem_append.mp (hother.subset hname) with hmem | hmem
    · exact List.all_eq_true.mp hall name hmem
    · rw [List.mem_singleton.mp hmem]
      rfl

/-! ## A file is put -/

/-- Nothing becomes a directory but what is on the way to the file. -/
theorem isDirectory_put (hway : files.HasWay place) (hne : other ≠ place) :
    (files.put place data).isDirectory other = files.isDirectory other := by
  rw [Bool.eq_iff_iff]
  constructor
  · intro h
    rw [isDirectory, Bool.or_eq_true] at h
    rcases h with h | h
    · rw [isDirectory, h, Bool.true_or]
    · obtain ⟨file, hfile, hbelow⟩ := List.any_eq_true.mp h
      rw [put, List.mem_cons] at hfile
      rcases hfile with rfl | hfile
      · rw [Bool.and_eq_true, List.isPrefixOf_iff_prefix] at hbelow
        exact hway hbelow.1 hne
      · rw [isDirectory, Bool.or_eq_true]
        exact .inr (List.any_eq_true.mpr ⟨file, List.mem_of_mem_filter hfile, hbelow⟩)
  · intro h
    rw [isDirectory, Bool.or_eq_true] at h ⊢
    refine h.imp_right fun h => ?_
    obtain ⟨file, hfile, hbelow⟩ := List.any_eq_true.mp h
    by_cases hplace : file.1 = place
    · exact List.any_eq_true.mpr ⟨(place, data), List.mem_cons_self, hplace ▸ hbelow⟩
    · refine List.any_eq_true.mpr ⟨file, List.mem_cons_of_mem _ ?_, hbelow⟩
      exact List.mem_filter.mpr ⟨hfile, decide_eq_true hplace⟩

/-- **Other places stay as they are.** -/
theorem entry?_put_of_ne (hway : files.HasWay place) (hne : other ≠ place) :
    entry? (files.put place data) other = files.entry? other := by
  unfold entry?
  rw [get?_put_of_ne files data hne, isDirectory_put hway hne]

theorem entry?_put_self (files : Files) (place : Place) (data : Bytes) :
    entry? (files.put place data) place = some (.file data) := by
  unfold entry?
  rw [get?_put_self]

/-! ## A file is written -/

/-- What writing a file does: the path leads to a place that is no directory, though all places on
the way to it are, and the file is put there. -/
theorem eq_put_of_write {path : Path} (h : files.write path data = .ok files') :
    ∃ place, files.locate path = .ok place ∧ path.endsInSlash = false ∧
      files.entry? place ≠ some .directory ∧
      files.HasWay place ∧
      files' = files.put place data := by
  rw [write] at h
  split at h
  · cases h
  next name hname =>
  simp only [bind, Except.bind] at h
  split at h
  · cases h
  next hlocate =>
  split at h
  · cases h
  next above habove =>
  obtain ⟨rfl, hentry⟩ := directory_eq_ok_iff.mp habove
  split at h
  · cases h
  next hslash =>
  split at h
  · cases h
  next place hchild =>
  split at h
  · cases h
  next hfile =>
  have hdirectory := isDirectory_of_entry? hentry
  refine ⟨place, ?_, Bool.not_eq_true _ ▸ hslash, hfile, ?_, (Except.ok.inj h).symm⟩
  · rw [locate_eq, ← List.dropLast_append_getLast? name hname, List.foldlM_append]
    have hfirst : path.names.dropLast.foldlM files.step path.start = .ok above := hlocate
    rw [hfirst]
    simp only [List.foldlM_cons, List.foldlM_nil, bind, Except.bind,
      step_eq_ok_iff.mpr ⟨hentry, hchild⟩]
    rfl
  · rw [Place.child] at hchild
    split at hchild
    · obtain rfl := Except.ok.inj hchild
      exact absurd hentry hfile
    split at hchild
    · obtain rfl := Except.ok.inj hchild
      exact fun _ hother _ => isDirectory_of_isPrefix_parent hdirectory hother
    split at hchild
    · cases hchild
    · obtain rfl := Except.ok.inj hchild
      intro other hother hne
      rcases List.prefix_concat_iff.mp hother with heq | hup
      · exact absurd heq hne
      · exact isDirectory_of_isPrefix hdirectory hup

/-! ## Files are read after one was written -/

/-- A path that led somewhere leads there still. -/
theorem locate_put (hway : files.HasWay place) (hfile : files.entry? place ≠ some .directory)
    {path : Path} {target : Place} (h : files.locate path = .ok target) :
    (files.put place data).locate path = .ok target := by
  rw [locate_eq] at h ⊢
  generalize path.start = start, path.names = names at h ⊢
  induction names generalizing start with
  | nil => exact h
  | cons name names ih =>
    simp only [List.foldlM_cons, bind, Except.bind] at h ⊢
    split at h
    · cases h
    next next hstep =>
    obtain ⟨hentry, hchild⟩ := step_eq_ok_iff.mp hstep
    -- the place the path goes through is a directory, and so not the one that is written
    have hne : start ≠ place := by
      rintro rfl
      exact hfile hentry
    rw [step_eq_ok_iff.mpr ⟨(entry?_put_of_ne hway hne).trans hentry, hchild⟩]
    exact ih next h

theorem exists_of_readAt {path : String} (h : files.readAt path = .ok data) :
    ∃ parsed place, Path.ofString path = .ok parsed ∧ files.locate parsed = .ok place ∧
      files.entry? place = some (.file data) ∧ parsed.endsInSlash = false := by
  simp only [readAt, read, bind, Except.bind] at h
  split at h
  · cases h
  next parsed hparsed =>
  split at h
  · cases h
  next place hlocate =>
  split at h
  · next found hentry =>
    split at h
    · cases h
    next hslash =>
    obtain rfl := Except.ok.inj h
    exact ⟨parsed, place, hparsed, hlocate, hentry, Bool.not_eq_true _ ▸ hslash⟩
  · cases h
  · cases h

theorem readAt_eq_ok {path : String} {parsed : Path} (hparsed : Path.ofString path = .ok parsed)
    (hlocate : files.locate parsed = .ok place) (hentry : files.entry? place = some (.file data))
    (hslash : parsed.endsInSlash = false) : files.readAt path = .ok data := by
  simp only [readAt, read, bind, Except.bind, hparsed, hlocate, hentry, hslash,
    Bool.false_eq_true, if_false]

theorem exists_of_writeAt {path : String} (h : files.writeAt path data = .ok files') :
    ∃ parsed, Path.ofString path = .ok parsed ∧ files.write parsed data = .ok files' := by
  simp only [writeAt, bind, Except.bind] at h
  split at h
  · cases h
  · next parsed hparsed => exact ⟨parsed, hparsed, h⟩

/-- **What was written is read back.** -/
theorem readAt_of_writeAt {path : String} (h : files.writeAt path data = .ok files') :
    files'.readAt path = .ok data := by
  obtain ⟨parsed, hparsed, hwrite⟩ := exists_of_writeAt h
  obtain ⟨place, hlocate, hslash, hfile, hway, rfl⟩ := eq_put_of_write hwrite
  exact readAt_eq_ok hparsed (locate_put hway hfile hlocate) (entry?_put_self files place data)
    hslash

/-- What is at a place stays there, unless the path that was written leads to it. -/
theorem entry?_of_writeAt_of_ne {path : String} (h : files.writeAt path data = .ok files')
    (hne : files.locateAt path ≠ .ok place) : files'.entry? place = files.entry? place := by
  obtain ⟨parsed, hparsed, hwrite⟩ := exists_of_writeAt h
  obtain ⟨written, hlocate, -, -, hway, rfl⟩ := eq_put_of_write hwrite
  refine entry?_put_of_ne hway ?_
  rintro rfl
  refine hne ?_
  simp only [locateAt, bind, Except.bind, hparsed, hlocate]

/-- **What was not written is read as before**, through whatever path it is read. -/
theorem readAt_of_writeAt_of_ne {path path' : String} {data' : Bytes}
    (h : files.writeAt path data = .ok files') (hread : files.readAt path' = .ok data')
    (hne : files.locateAt path ≠ files.locateAt path') : files'.readAt path' = .ok data' := by
  obtain ⟨parsed, hparsed, hwrite⟩ := exists_of_writeAt h
  obtain ⟨place, hlocate, -, hfile, hway, rfl⟩ := eq_put_of_write hwrite
  obtain ⟨parsed', place', hparsed', hlocate', hentry, hslash⟩ := exists_of_readAt hread
  have hplace : place' ≠ place := by
    rintro rfl
    refine hne ?_
    simp only [locateAt, bind, Except.bind, hparsed, hparsed', hlocate, hlocate']
  exact readAt_eq_ok hparsed' (locate_put hway hfile hlocate')
    ((entry?_put_of_ne hway hplace).trans hentry) hslash

end Strongbox.Command.Files
