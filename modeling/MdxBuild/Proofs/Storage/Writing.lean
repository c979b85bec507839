import MdxBuild.Proofs.Storage.Disk

/-!
# Files that can be written

A text that was written to a file is read from it, whatever the names of its path: the names lead to
the place of the file through directories, and a file is written where there is none. Where a file
can be written, it can be written as well after the file that was there is removed.
-/

namespace MdxBuild.Disk

variable {disk bare : Disk} {place path names : Path} {text key : Text}

/-- Texts can be written to the file at a path. -/
def IsWritable (disk : Disk) (path : Path) : Prop :=
  ∀ text, (disk.put path text).1 = .ok ()

/-! ## Reading what was written -/

/-- A file that is written where there is no directory is in the way of no directory. -/
theorem entry?_set_of_directory {entry : Entry} {other : Path}
    (free : disk.entry? place ≠ some .directory)
    (isDirectory : disk.entry? other = some .directory) :
    Disk.entry? (disk.set place entry) other = some .directory := by
  rw [ entry?] at free isDirectory ⊢
  split
  · rfl
  · next notAbove =>
    rw [if_neg notAbove] at isDirectory
    split at free
    · exact absurd rfl free
    · have differs : other.toText ≠ place.toText := by
        intro same
        rw [same] at isDirectory
        exact free isDirectory
      rw [set, Dictionary.find?_insert_of_ne _ _ differs]
      exact isDirectory

/-- What was written is read. -/
theorem read?_of_write? {written : Disk} (writes : disk.write? path text = some written) :
    written.read? path = some text := by
  obtain ⟨place, isPlace, stored⟩ := Option.bind_eq_some_iff.mp writes
  split at stored
  · cases stored
  · next allowed =>
    obtain rfl := Option.some.inj stored
    simp only [Bool.or_eq_true, decide_eq_true_eq, not_or] at allowed
    obtain ⟨⟨free, -⟩, -⟩ := allowed
    have stillPlace : (disk.set place (.file (some text))).place? path = some place :=
      walk?_mono (entry?_set_of_directory free) isPlace
    have notAbove : place.isAbove = false := by
      rw [ entry?] at free
      split at free
      · exact absurd rfl free
      · next notAbove => exact Bool.eq_false_iff.mpr notAbove
    rw [read?, find?, stillPlace, Option.bind_some, entry?, notAbove, set]
    simp

theorem read?_put_of_ok (succeeds : (disk.put path text).1 = .ok ()) :
    (disk.put path text).2.read? path = some text := by
  rw [put] at succeeds ⊢
  rcases made : disk.makeDirs path.dropLast with ⟨_ | _, middle⟩ <;> simp only [made] at succeeds ⊢
  · cases succeeds
  · cases writes : middle.write? path text with
    | none => simp [writes] at succeeds
    | some written => exact read?_of_write? writes

/-- Whether a text can be written does not depend on the text. -/
theorem isSome_write?_congr (text other : Text) :
    (disk.write? path text).isSome = (disk.write? path other).isSome := by
  rw [write?, write?]
  cases disk.place? path with
  | none => rfl
  | some place =>
    change (ite _ _ _ : Option Disk).isSome = (ite _ _ _ : Option Disk).isSome
    split <;> rfl

/-- Where one text can be written, every text can. -/
theorem isWritable_of_put (succeeds : (disk.put path text).1 = .ok ()) : disk.IsWritable path := by
  intro other
  rw [put] at succeeds ⊢
  rcases made : disk.makeDirs path.dropLast with ⟨_ | _, middle⟩ <;> simp only [made] at succeeds ⊢
  · cases succeeds
  · have same : (middle.write? path text).isSome = (middle.write? path other).isSome :=
      isSome_write?_congr text other
    cases writes : middle.write? path text with
    | none => simp [writes] at succeeds
    | some written =>
      rw [writes, Option.isSome_some] at same
      obtain ⟨otherWritten, otherWrites⟩ := Option.isSome_iff_exists.mp same.symm
      rw [otherWrites]

/-! ## What a write leaves -/

/-- A write, also one that fails, takes no directory away. -/
theorem entry?_put_of_directory (isDirectory : disk.entry? place = some .directory) :
    Disk.entry? (disk.put path text).2 place = some .directory := by
  have furnished := furnished_makeDirsFrom disk [] path.dropLast
  rw [← makeDirs] at furnished
  rw [put]
  rcases made : disk.makeDirs path.dropLast with ⟨_ | _, middle⟩ <;> rw [made] at furnished <;>
    simp only
  · exact furnished.entry?_kept isDirectory
  · cases writes : middle.write? path text with
    | none => exact furnished.entry?_kept isDirectory
    | some written =>
      obtain ⟨found, -, stored⟩ := Option.bind_eq_some_iff.mp writes
      split at stored
      · cases stored
      · next allowed =>
        obtain rfl := Option.some.inj stored
        simp only [Bool.or_eq_true, decide_eq_true_eq, not_or] at allowed
        exact entry?_set_of_directory allowed.1.1 (furnished.entry?_kept isDirectory)

/-- What is read from a file is still read after a write to another one. -/
theorem read?_put_of_ne {other : Path} {content : Text} (direct : path.IsDirect)
    (directOther : other.IsDirect) (differs : other.toText ≠ path.toText)
    (reads : disk.read? other = some content) :
    (disk.put path text).2.read? other = some content := by
  rw [read?, find?] at reads ⊢
  cases isPlace : disk.place? other with
  | none => simp [isPlace] at reads
  | some found =>
    have stillPlace : (disk.put path text).2.place? other = some found :=
      walk?_mono entry?_put_of_directory isPlace
    obtain rfl := place?_eq directOther isPlace
    rw [isPlace, Option.bind_some] at reads
    rw [stillPlace, Option.bind_some]
    cases standing : disk.entry? found with
    | none => simp [standing] at reads
    | some entry => rwa [entry?_put_of_ne direct differs standing, ← standing]

/-! ## Writing where a file was -/

/-- A directory that could be made was there already, or is new under a name that can be taken. -/
theorem makeDir_cases (made : (disk.makeDir place).1 = true) :
    disk.entry? place = some .directory ∧ disk.makeDir place = (true, disk) ∨
      disk.entry? place = none ∧ place.all Path.isName = true ∧
        disk.makeDir place = (true, disk.set place .directory) := by
  cases standing : disk.entry? place with
  | some entry =>
    cases entry with
    | directory => exact .inl ⟨rfl, by rw [makeDir, standing]⟩
    | file content => simp [makeDir, standing] at made
  | none =>
    cases isNames : place.all Path.isName with
    | true => exact .inr ⟨rfl, rfl, by simp only [makeDir, standing, isNames, if_true]⟩
    | false => simp [makeDir, standing, isNames] at made

/-- The second tree is the first one without the file under a key. -/
structure LacksFile (key : Text) (disk bare : Disk) : Prop where
  others : ∀ {other}, other ≠ key → bare.entries.find? other = disk.entries.find? other
  hadFile : ∃ content, disk.entries.find? key = some (.file content)
  absent : bare.entries.find? key = none

namespace LacksFile

/-- The directories are the same. -/
theorem entry?_eq_directory_iff (lacks : LacksFile key disk bare) :
    bare.entry? place = some .directory ↔ disk.entry? place = some .directory := by
  rw [ entry?, entry?]
  split
  · rfl
  · by_cases same : place.toText = key
    · obtain ⟨content, isFile⟩ := lacks.hadFile
      rw [same, lacks.absent, isFile]
      simp
    · rw [lacks.others same]

/-- The trees have the same new entries. -/
theorem set (lacks : LacksFile key disk bare) (differs : place.toText ≠ key) (entry : Entry) :
    LacksFile key (disk.set place entry) (bare.set place entry) where
  others otherDiffers := by
    rw [Disk.set, Disk.set, Dictionary.find?_insert, Dictionary.find?_insert,
      lacks.others otherDiffers]
  hadFile := by
    rw [Disk.set, Dictionary.find?_insert_of_ne _ _ differs.symm]
    exact lacks.hadFile
  absent := by
    rw [Disk.set, Dictionary.find?_insert_of_ne _ _ differs.symm]
    exact lacks.absent

/-- Directories that can be made beside the file can be made without it. -/
theorem makeDir (lacks : LacksFile key disk bare) (made : (disk.makeDir place).1 = true) :
    (bare.makeDir place).1 = true ∧
      LacksFile key (disk.makeDir place).2 (bare.makeDir place).2 := by
  rcases makeDir_cases made with ⟨standing, isMade⟩ | ⟨standing, isNames, isMade⟩
  · have isBareMade : bare.makeDir place = (true, bare) := by
      rw [Disk.makeDir, lacks.entry?_eq_directory_iff.mpr standing]
    rw [isMade, isBareMade]
    exact ⟨rfl, lacks⟩
  · have notAbove : ¬place.isAbove = true := by
      intro above
      rw [ entry?, if_pos above] at standing
      cases standing
    rw [ entry?, if_neg notAbove] at standing
    have differs : place.toText ≠ key := by
      intro same
      obtain ⟨content, isFile⟩ := lacks.hadFile
      rw [same, isFile] at standing
      cases standing
    have bareStanding : bare.entry? place = none := by
      rw [ entry?, if_neg notAbove, lacks.others differs, standing]
    have isBareMade : bare.makeDir place = (true, bare.set place .directory) := by
      simp only [Disk.makeDir, bareStanding, isNames, if_true]
    rw [isMade, isBareMade]
    exact ⟨rfl, lacks.set differs .directory⟩

theorem makeDirsFrom (lacks : LacksFile key disk bare)
    (made : (disk.makeDirsFrom place names).1 = true) :
    (bare.makeDirsFrom place names).1 = true ∧
      LacksFile key (disk.makeDirsFrom place names).2 (bare.makeDirsFrom place names).2 := by
  induction names generalizing disk bare place with
  | nil => exact lacks.makeDir made
  | cons name others ih =>
    have first : (disk.makeDir place).1 = true → (bare.makeDir place).1 = true ∧
        LacksFile key (disk.makeDir place).2 (bare.makeDir place).2 := lacks.makeDir
    rw [Disk.makeDirsFrom] at made ⊢
    rw [Disk.makeDirsFrom]
    rcases isMade : disk.makeDir place with ⟨_ | _, middle⟩
    · simp [isMade] at made
    · rw [isMade] at made first
      obtain ⟨bareMade, lacksMiddle⟩ := first rfl
      rcases isBareMade : bare.makeDir place with ⟨_ | _, bareMiddle⟩
      · simp [isBareMade] at bareMade
      · rw [isBareMade] at lacksMiddle
        exact ih lacksMiddle made

/-- A file that can be written beside the other file can be written without it. -/
theorem write? (lacks : LacksFile key disk bare) (writes : (disk.write? path text).isSome) :
    (bare.write? path text).isSome := by
  obtain ⟨written, writes⟩ := Option.isSome_iff_exists.mp writes
  obtain ⟨place, isPlace, stored⟩ := Option.bind_eq_some_iff.mp writes
  have barePlace : bare.place? path = some place :=
    walk?_mono lacks.entry?_eq_directory_iff.mpr isPlace
  split at stored
  · cases stored
  · next allowed =>
    have sameTest : decide ( bare.entry? place = some .directory) =
        decide ( disk.entry? place = some .directory) :=
      decide_eq_decide.mpr lacks.entry?_eq_directory_iff
    have bareWrites : bare.write? path text = some (bare.set place (.file (some text))) := by
      rw [Disk.write?, barePlace]
      change (if _ then _ else _) = _
      rw [sameTest, if_neg allowed]
    exact Option.isSome_of_eq_some bareWrites

theorem put (lacks : LacksFile key disk bare) (succeeds : (disk.put path text).1 = .ok ()) :
    (bare.put path text).1 = .ok () := by
  have dirs : (disk.makeDirs path.dropLast).1 = true → (bare.makeDirs path.dropLast).1 = true ∧
      LacksFile key (disk.makeDirs path.dropLast).2 (bare.makeDirs path.dropLast).2 :=
    lacks.makeDirsFrom
  rw [Disk.put] at succeeds ⊢
  rcases made : disk.makeDirs path.dropLast with ⟨_ | _, middle⟩ <;> rw [made] at succeeds dirs
  · cases succeeds
  · obtain ⟨bareMade, lacksMiddle⟩ := dirs rfl
    rcases isBareMade : bare.makeDirs path.dropLast with ⟨_ | _, bareMiddle⟩
    · simp [isBareMade] at bareMade
    · rw [isBareMade] at lacksMiddle
      have writes : (middle.write? path text).isSome := by
        cases refused : middle.write? path text with
        | none => simp [refused] at succeeds
        | some written => rfl
      obtain ⟨written, bareWrites⟩ := Option.isSome_iff_exists.mp (lacksMiddle.write? writes)
      simp only [bareWrites]

end LacksFile

/-- Removing a file leaves the tree as it is or takes one file away. -/
theorem remove_cases (disk : Disk) (path : Path) :
    disk.remove path = disk ∨ ∃ key, LacksFile key disk (disk.remove path) := by
  rw [remove]
  cases isPlace : disk.place? path with
  | none => exact .inl rfl
  | some place =>
    simp only
    split
    · next hadFile =>
      refine .inr ⟨place.toText, fun differs => Dictionary.find?_erase_of_ne _ differs, ?_, ?_⟩
      · rw [hasFile, find?, isPlace, Option.bind_some, entry?] at hadFile
        split at hadFile
        · next content isFile =>
          split at isFile
          · cases isFile
          · exact ⟨content, isFile⟩
        · cases hadFile
      · simp
    · exact .inl rfl

/-- Where a file can be written, it still can after a file was removed. -/
theorem IsWritable.remove (writable : disk.IsWritable path) (other : Path) :
    (disk.remove other).IsWritable path := by
  intro text
  rcases disk.remove_cases other with same | ⟨key, lacks⟩
  · rw [same]
    exact writable text
  · exact lacks.put (writable text)

end MdxBuild.Disk
