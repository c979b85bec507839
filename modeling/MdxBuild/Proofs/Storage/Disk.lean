import MdxBuild.Storage.Disk
import MdxBuild.Proofs.Dictionary

/-!
# What writing and removing change on disk

For a path whose names lead nowhere up, a write makes directories on the way to the file and the
file itself, and nothing else; removing a file removes its entry, and nothing else. A write into a
directory below the root succeeds if no file stands in the way of a directory and no directory in
the way of the file.
-/

namespace MdxBuild

/-- A path none of whose names leads to a directory around. -/
def Path.IsDirect (path : Path) : Prop :=
  ∀ name ∈ path, name ≠ Path.up

namespace Disk

variable {disk middle after : Disk} {place path names : Path} {places : List Path}
  {entry : Entry} {text key : Text}

theorem next_of_ne {name : Text} (direct : name ≠ Path.up) : place.next name = place ++ [name] := by
  simp [Path.next, direct]

/-- Direct names lead from a place to the place that they spell. -/
theorem walk?_eq (direct : names.IsDirect) {found : Path}
    (walked : disk.walk? place names = some found) : found = place ++ names := by
  induction names generalizing place with
  | nil => simpa [walk?] using walked.symm
  | cons name others ih =>
    rw [walk?] at walked
    split at walked
    · rw [next_of_ne (direct name List.mem_cons_self)] at walked
      have reached := ih (fun other member => direct other (List.mem_cons_of_mem _ member)) walked
      simpa using reached
    · cases walked

theorem place?_eq (direct : path.IsDirect) (found : disk.place? path = some place) :
    place = path :=
  walk?_eq direct found

/-! ## Making directories -/

/-- The second tree is the first one with directories at some of the places where nothing was. -/
structure Furnished (disk : Disk) (places : List Path) (after : Disk) : Prop where
  kept : ∀ {key entry}, disk.entries.find? key = some entry → after.entries.find? key = some entry
  new : ∀ {key entry}, after.entries.find? key = some entry →
    disk.entries.find? key = some entry ∨ entry = .directory ∧ ∃ place ∈ places, key = place.toText

namespace Furnished

theorem refl (disk : Disk) (places : List Path) : Furnished disk places disk where
  kept found := found
  new found := .inl found

theorem trans (first : Furnished disk places middle) (second : Furnished middle places after) :
    Furnished disk places after where
  kept found := second.kept (first.kept found)
  new found := by
    rcases second.new found with before | made
    · exact first.new before
    · exact .inr made

theorem widen {more : List Path} (furnished : Furnished disk places after)
    (subset : places ⊆ more) : Furnished disk more after where
  kept := furnished.kept
  new found := by
    rcases furnished.new found with before | ⟨isDirectory, place, member, spelled⟩
    · exact .inl before
    · exact .inr ⟨isDirectory, place, subset member, spelled⟩

theorem entry?_kept (furnished : Furnished disk places after)
    (found : disk.entry? place = some entry) : after.entry? place = some entry := by
  rw [ entry?] at found ⊢
  split
  · next above => rwa [if_pos above] at found
  · next notAbove =>
    rw [if_neg notAbove] at found
    exact furnished.kept found

/-- No file is where there was none. -/
theorem file_of_file (furnished : Furnished disk places after) {content : Option Text}
    (found : after.entry? place = some (.file content)) :
    disk.entry? place = some (.file content) := by
  rw [ entry?] at found ⊢
  split
  · next above => rwa [if_pos above] at found
  · next notAbove =>
    rw [if_neg notAbove] at found
    rcases furnished.new found with before | ⟨isDirectory, -⟩
    · exact before
    · cases isDirectory

/-- No directory is where there was none, except at the places. -/
theorem noDirectory (furnished : Furnished disk places after)
    (distinct : ∀ along ∈ places, along.toText ≠ place.toText)
    (free : disk.entry? place ≠ some .directory) : after.entry? place ≠ some .directory := by
  intro isDirectory
  rw [ entry?] at isDirectory free
  split at isDirectory
  · next above =>
    rw [if_pos above] at free
    exact free isDirectory
  · next notAbove =>
    rw [if_neg notAbove] at free
    rcases furnished.new isDirectory with before | ⟨-, along, member, spelled⟩
    · exact free before
    · exact distinct along member spelled.symm

end Furnished

theorem furnished_makeDir (disk : Disk) (place : Path) :
    Furnished disk [place] (disk.makeDir place).2 := by
  rw [makeDir]
  cases standing : disk.entry? place with
  | some entry => cases entry <;> exact .refl _ _
  | none =>
    simp only
    split
    · rw [ entry?] at standing
      split at standing
      · cases standing
      · constructor
        · intro key entry found
          rw [set, Dictionary.find?_insert, if_neg, found]
          rintro rfl
          rw [standing] at found
          cases found
        · intro key entry found
          rw [set, Dictionary.find?_insert] at found
          split at found
          · next spelled =>
            exact .inr ⟨(Option.some.inj found).symm, place, List.mem_singleton_self _, spelled⟩
          · exact .inl found
    · exact .refl _ _

/-- The places on the way along names, with the last one. -/
def placesAlong (place : Path) : (names : Path) → List Path
  | [] => [place]
  | name :: names => place :: placesAlong (place.next name) names

theorem furnished_makeDirsFrom (disk : Disk) (place names : Path) :
    Furnished disk (placesAlong place names) (disk.makeDirsFrom place names).2 := by
  induction names generalizing disk place with
  | nil => exact furnished_makeDir disk place
  | cons name others ih =>
    have here := furnished_makeDir disk place
    rw [makeDirsFrom]
    rcases made : disk.makeDir place with ⟨_ | _, middle⟩ <;> rw [made] at here
    · exact here.widen (by simp [placesAlong])
    · exact (here.widen (by simp [placesAlong])).trans
        ((ih middle (place.next name)).widen (by simp [placesAlong]))

theorem entry?_makeDir (made : (disk.makeDir place).1 = true) (notAbove : place.isAbove = false) :
    Disk.entry? (disk.makeDir place).2 place = some .directory := by
  rw [makeDir] at made ⊢
  cases standing : disk.entry? place with
  | some entry =>
    cases entry with
    | directory => exact standing
    | file content => simp [standing] at made
  | none =>
    simp only [standing] at made ⊢
    split at made
    · next isNames => simp [isNames, entry?, notAbove, set]
    · cases made

/-- If directories along names can be made, there are directories at all places along them. -/
theorem entry?_makeDirsFrom (direct : names.IsDirect) (notAbove : place.isAbove = false)
    (made : (disk.makeDirsFrom place names).1 = true) {along : Path}
    (member : along ∈ placesAlong place names) :
    Disk.entry? (disk.makeDirsFrom place names).2 along = some .directory := by
  induction names generalizing disk place with
  | nil =>
    obtain rfl := List.mem_singleton.mp member
    exact entry?_makeDir made notAbove
  | cons name others ih =>
    have here : (disk.makeDir place).1 = true → place.isAbove = false →
        Disk.entry? (disk.makeDir place).2 place = some .directory :=
      entry?_makeDir
    rw [makeDirsFrom] at made ⊢
    rcases first : disk.makeDir place with ⟨_ | _, middle⟩
    · simp [first] at made
    · simp only [first] at made here ⊢
      have isName : name ≠ Path.up := direct name List.mem_cons_self
      rcases List.mem_cons.mp member with rfl | later
      · exact (furnished_makeDirsFrom middle _ others).entry?_kept (here trivial notAbove)
      · refine ih (fun other member => direct other (List.mem_cons_of_mem _ member)) ?_ made later
        rw [next_of_ne isName, Path.isAbove]
        simp [isName]

/-- A directory can be made where no file stands. -/
theorem makeDir_of_noFile (noFile : ∀ content, disk.entry? place ≠ some (.file content))
    (isNames : place.all Path.isName = true) (notAbove : place.isAbove = false) :
    (disk.makeDir place).1 = true ∧ Disk.entry? (disk.makeDir place).2 place = some .directory := by
  have made : (disk.makeDir place).1 = true := by
    rw [makeDir]
    cases standing : disk.entry? place with
    | some entry =>
      cases entry with
      | directory => rfl
      | file content => exact absurd standing (noFile content)
    | none => simp [isNames]
  exact ⟨made, entry?_makeDir made notAbove⟩

/-! ## Writing files -/

/-- What a write adds: directories on the way, and the text of the file if it succeeds. -/
theorem find?_put (direct : path.IsDirect)
    (found : (disk.put path text).2.entries.find? key = some entry) :
    disk.entries.find? key = some entry ∨
      entry = .directory ∧ (∃ place ∈ placesAlong [] path.dropLast, key = place.toText) ∨
      entry = .file (some text) ∧ key = path.toText := by
  have furnished := furnished_makeDirsFrom disk [] path.dropLast
  rw [put] at found
  rw [← makeDirs] at furnished
  rcases made : disk.makeDirs path.dropLast with ⟨_ | _, middle⟩ <;>
    rw [made] at found furnished <;> simp only at found
  · rcases furnished.new found with before | made
    · exact .inl before
    · exact .inr (.inl made)
  · cases written : middle.write? path text with
    | none =>
      rw [written] at found
      rcases furnished.new found with before | made
      · exact .inl before
      · exact .inr (.inl made)
    | some final =>
      rw [written] at found
      obtain ⟨place, isPlace, stored⟩ := Option.bind_eq_some_iff.mp written
      split at stored
      · cases stored
      · obtain rfl := place?_eq direct isPlace
        obtain rfl := Option.some.inj stored
        rw [set, Dictionary.find?_insert] at found
        split at found
        · next spelled => exact .inr (.inr ⟨(Option.some.inj found).symm, spelled⟩)
        · rcases furnished.new found with before | made
          · exact .inl before
          · exact .inr (.inl made)

/-- A write takes nothing away but the file that was at its path. -/
theorem find?_put_of_ne (direct : path.IsDirect) (differs : key ≠ path.toText)
    (found : disk.entries.find? key = some entry) :
    (disk.put path text).2.entries.find? key = some entry := by
  have furnished := furnished_makeDirsFrom disk [] path.dropLast
  rw [put]
  rw [← makeDirs] at furnished
  rcases made : disk.makeDirs path.dropLast with ⟨_ | _, middle⟩ <;> rw [made] at furnished <;>
    simp only
  · exact furnished.kept found
  · cases written : middle.write? path text with
    | none => exact furnished.kept found
    | some final =>
      obtain ⟨place, isPlace, stored⟩ := Option.bind_eq_some_iff.mp written
      split at stored
      · cases stored
      · obtain rfl := place?_eq direct isPlace
        obtain rfl := Option.some.inj stored
        rw [set, Dictionary.find?_insert_of_ne _ _ differs]
        exact furnished.kept found

theorem entry?_put_of_ne (direct : path.IsDirect) (differs : place.toText ≠ path.toText)
    (found : disk.entry? place = some entry) :
    Disk.entry? (disk.put path text).2 place = some entry := by
  rw [ entry?] at found ⊢
  split
  · next above => rwa [if_pos above] at found
  · next notAbove =>
    rw [if_neg notAbove] at found
    exact find?_put_of_ne direct differs found

/-- A write that succeeds leaves directories at all places on the way to the file. -/
theorem entry?_put_along (direct : path.IsDirect) (succeeds : (disk.put path text).1 = .ok ())
    (member : place ∈ placesAlong [] path.dropLast) (differs : place.toText ≠ path.toText) :
    Disk.entry? (disk.put path text).2 place = some .directory := by
  have directory : (disk.makeDirs path.dropLast).1 = true →
      ∀ {along : Path}, along ∈ placesAlong [] path.dropLast →
        Disk.entry? (disk.makeDirs path.dropLast).2 along = some .directory :=
    entry?_makeDirsFrom (fun name inPath => direct name (List.dropLast_subset path inPath)) rfl
  rw [put] at succeeds ⊢
  rcases made : disk.makeDirs path.dropLast with ⟨_ | _, middle⟩ <;>
    simp only [made] at succeeds directory ⊢
  · cases succeeds
  · have standing := directory trivial member
    cases written : middle.write? path text with
    | none => simp [written] at succeeds
    | some final =>
      obtain ⟨found, isPlace, stored⟩ := Option.bind_eq_some_iff.mp written
      split at stored
      · cases stored
      · obtain rfl := place?_eq direct isPlace
        obtain rfl := Option.some.inj stored
        rw [ entry?] at standing ⊢
        split
        · rfl
        · next notAbove =>
          rw [if_neg notAbove] at standing
          simp only [set]
          rwa [Dictionary.find?_insert_of_ne _ _ differs]

/-- A write that succeeds leaves the file with its text. -/
theorem find?_put_self (direct : path.IsDirect) (succeeds : (disk.put path text).1 = .ok ()) :
    (disk.put path text).2.entries.find? path.toText = some (.file (some text)) := by
  rw [put] at succeeds ⊢
  rcases made : disk.makeDirs path.dropLast with ⟨_ | _, middle⟩ <;>
    rw [made] at succeeds <;> simp only at succeeds ⊢
  · cases succeeds
  · cases written : middle.write? path text with
    | none =>
      rw [written] at succeeds
      cases succeeds
    | some final =>
      obtain ⟨place, isPlace, stored⟩ := Option.bind_eq_some_iff.mp written
      split at stored
      · cases stored
      · obtain rfl := place?_eq direct isPlace
        obtain rfl := Option.some.inj stored
        rw [set, Dictionary.find?_insert_self]

/-- A file below a directory of the root can be written if no file stands in the way of the
directories and no directory in the way of the file. -/
theorem put_of_free {directory file : Text} (directDirectory : directory ≠ Path.up)
    (directFile : file ≠ Path.up) (directoryName : Path.isName directory = true)
    (fileName : Path.isName file = true)
    (distinct : ∀ place ∈ placesAlong [] [directory], place.toText ≠ Path.toText [directory, file])
    (rootFree : ∀ content, disk.entry? [] ≠ some (.file content))
    (directoryFree : ∀ content, disk.entry? [directory] ≠ some (.file content))
    (fileFree : disk.entry? [directory, file] ≠ some .directory) :
    (disk.put [directory, file] text).1 = .ok () := by
  have notAbove : Path.isAbove [directory] = false := by simp [Path.isAbove, directDirectory]
  obtain ⟨rootMade, rootIs⟩ := makeDir_of_noFile rootFree rfl rfl
  have rootFurnished := furnished_makeDir disk []
  rcases root : disk.makeDir [] with ⟨success, first⟩
  rw [root] at rootMade rootIs rootFurnished
  simp only at rootMade
  subst rootMade
  have stillNoFile : ∀ content, first.entry? [directory] ≠ some (.file content) :=
    fun content isFile => directoryFree content (rootFurnished.file_of_file isFile)
  obtain ⟨directoryMade, directoryIs⟩ :=
    makeDir_of_noFile stillNoFile (by simp [directoryName]) notAbove
  have directoryFurnished := furnished_makeDir first [directory]
  rcases made : first.makeDir [directory] with ⟨success, second⟩
  rw [made] at directoryMade directoryIs directoryFurnished
  simp only at directoryMade
  subst directoryMade
  have dirs : disk.makeDirs [directory] = (true, second) := by
    simp only [makeDirs, makeDirsFrom, root, next_of_ne directDirectory, List.nil_append, made]
  have isPlace : second.place? [directory, file] = some [directory, file] := by
    simp [place?, walk?, directoryFurnished.entry?_kept rootIs, next_of_ne directDirectory,
      directoryIs, next_of_ne directFile]
  have stillFree : second.entry? [directory, file] ≠ some .directory := by
    rw [placesAlong, next_of_ne directDirectory, List.forall_mem_cons] at distinct
    apply directoryFurnished.noDirectory distinct.2
    apply rootFurnished.noDirectory _ fileFree
    rw [List.forall_mem_singleton]
    exact distinct.1
  have written : second.write? [directory, file] text =
      some (second.set [directory, file] (.file (some text))) := by
    simp [write?, isPlace, stillFree, directoryName, fileName]
  simp [put, dirs, written]

/-- A file in the root can be written if there is no file in place of the root and no directory in
place of the file, and it can be read then. -/
theorem put_root_of_free {file : Text} (directFile : file ≠ Path.up)
    (fileName : Path.isName file = true) (named : file ≠ [])
    (rootFree : ∀ content, disk.entry? [] ≠ some (.file content))
    (fileFree : disk.entry? [file] ≠ some .directory) :
    (disk.put [file] text).1 = .ok () ∧ (disk.put [file] text).2.read? [file] = some text := by
  have notAbove : Path.isAbove [file] = false := by simp [Path.isAbove, directFile]
  have differs : Path.toText [file] ≠ Path.toText [] := by
    simpa [Path.toText] using named
  obtain ⟨rootMade, rootIs⟩ := makeDir_of_noFile rootFree rfl rfl
  have rootFurnished := furnished_makeDir disk []
  rcases root : disk.makeDir [] with ⟨success, first⟩
  rw [root] at rootMade rootIs rootFurnished
  obtain rfl : success = true := rootMade
  have leads {tree : Disk} (isDirectory : tree.entry? [] = some .directory) :
      tree.place? [file] = some [file] := by
    simp [place?, walk?, isDirectory, next_of_ne directFile]
  have stillFree : first.entry? [file] ≠ some .directory := by
    apply rootFurnished.noDirectory _ fileFree
    rw [List.forall_mem_singleton]
    exact differs.symm
  have written : first.write? [file] text = some (first.set [file] (.file (some text))) := by
    simp [write?, leads rootIs, stillFree, fileName]
  have rootStays : Disk.entry? (first.set [file] (.file (some text))) [] = some .directory := by
    rw [ entry?] at rootIs ⊢
    rw [set, Dictionary.find?_insert_of_ne _ _ differs.symm]
    exact rootIs
  have dirs : disk.makeDirs [] = (true, first) := root
  simp only [put, List.dropLast_singleton, dirs, written, true_and]
  rw [read?, find?, leads rootStays, Option.bind_some, entry?, notAbove, set]
  simp

/-! ## Reading and removing files -/

/-- What can be read from a file is the text of its entry. -/
theorem entry?_of_read? (direct : path.IsDirect) (read : disk.read? path = some text) :
    disk.entry? path = some (.file (some text)) := by
  rw [read?, find?] at read
  cases isPlace : disk.place? path with
  | none => simp [isPlace] at read
  | some place =>
    obtain rfl := place?_eq direct isPlace
    rw [isPlace, Option.bind_some] at read
    split at read
    · next content isFile => rw [isFile, read]
    · cases read

/-- Removing a file brings no entry. -/
theorem find?_of_find?_remove (found : (disk.remove path).entries.find? key = some entry) :
    disk.entries.find? key = some entry := by
  rw [remove] at found
  split at found
  · split at found
    · rw [Dictionary.find?_erase] at found
      split at found
      · cases found
      · exact found
    · exact found
  · exact found

/-- Removing a file takes no other entry away. -/
theorem find?_remove_of_ne (direct : path.IsDirect) (differs : key ≠ path.toText) :
    (disk.remove path).entries.find? key = disk.entries.find? key := by
  rw [remove]
  cases isPlace : disk.place? path with
  | none => rfl
  | some place =>
    obtain rfl := place?_eq direct isPlace
    simp only
    split
    · exact Dictionary.find?_erase_of_ne _ differs
    · rfl

theorem entry?_of_entry?_remove (found : Disk.entry? (disk.remove path) place = some entry) :
    disk.entry? place = some entry := by
  rw [ entry?] at found ⊢
  split
  · next above => rwa [if_pos above] at found
  · next notAbove =>
    rw [if_neg notAbove] at found
    exact find?_of_find?_remove found

/-- Names that lead somewhere through directories lead there in every tree with these
directories. -/
theorem walk?_mono
    (directories : ∀ {place}, disk.entry? place = some .directory →
      after.entry? place = some .directory)
    {found : Path} (walked : disk.walk? place names = some found) :
    after.walk? place names = some found := by
  induction names generalizing place with
  | nil => exact walked
  | cons name others ih =>
    rw [walk?] at walked ⊢
    split at walked
    · next isDirectory =>
      rw [if_pos (directories isDirectory)]
      exact ih walked
    · cases walked

/-- Removing a file removes no directory. -/
theorem entry?_remove_of_directory (isDirectory : disk.entry? place = some .directory) :
    Disk.entry? (disk.remove path) place = some .directory := by
  rw [remove]
  cases isPlace : disk.place? path with
  | none => exact isDirectory
  | some found =>
    simp only
    split
    · next hadFile =>
      rw [ entry?] at isDirectory ⊢
      split
      · rfl
      · next notAbove =>
        rw [if_neg notAbove] at isDirectory
        rw [Dictionary.find?_erase, if_neg, isDirectory]
        intro same
        rw [hasFile, find?, isPlace, Option.bind_some, entry?, ← same, isDirectory, ite_self]
          at hadFile
        cases hadFile
    · exact isDirectory

/-- Removing a file changes nothing that is read from another one. -/
theorem read?_remove_of_ne {other : Path} (direct : path.IsDirect) (directOther : other.IsDirect)
    (differs : other.toText ≠ path.toText) :
    (disk.remove path).read? other = disk.read? other := by
  have samePlace : (disk.remove path).place? other = disk.place? other := by
    ext found
    exact ⟨walk?_mono entry?_of_entry?_remove, walk?_mono entry?_remove_of_directory⟩
  rw [read?, read?, find?, find?, samePlace]
  cases isPlace : disk.place? other with
  | none => rfl
  | some place =>
    obtain rfl := place?_eq directOther isPlace
    rw [Option.bind_some, Option.bind_some, entry?, entry?, find?_remove_of_ne direct differs]

/-- A file that was removed cannot be read any more. -/
theorem read?_remove_self (disk : Disk) (path : Path) : (disk.remove path).read? path = none := by
  have noFile (tree : Disk) (absent : tree.hasFile path = false) : tree.read? path = none := by
    rw [hasFile] at absent
    rw [read?]
    split
    · next isFile => simp [isFile] at absent
    · rfl
  apply noFile
  cases isPlace : disk.place? path with
  | none => simp [remove, isPlace, hasFile, find?]
  | some place =>
    cases hadFile : disk.hasFile path with
    | false => simp [remove, isPlace, hadFile]
    | true =>
      have notAbove : place.isAbove = false := by
        rw [hasFile, find?, isPlace, Option.bind_some, entry?] at hadFile
        cases above : place.isAbove with
        | false => rfl
        | true => simp [above] at hadFile
      rw [hasFile, find?]
      cases isPlaceAfter : (disk.remove path).place? path with
      | none => rfl
      | some found =>
        have samePlace : disk.place? path = some found :=
          walk?_mono entry?_of_entry?_remove isPlaceAfter
        obtain rfl : place = found := Option.some.inj (isPlace.symm.trans samePlace)
        simp [remove, isPlace, hadFile, entry?, notAbove]

/-! ## Writes that fail -/

/-- Every file stands under names that a file system takes. -/
def IsProper (disk : Disk) : Prop :=
  ∀ {place : Path} {content : Option Text}, disk.entry? place = some (.file content) →
    place.all Path.isName = true

theorem IsProper.remove (proper : disk.IsProper) (path : Path) : (disk.remove path).IsProper :=
  fun found => proper (entry?_of_entry?_remove found)

/-- Where directories cannot be made, no names lead on. -/
theorem walk?_of_makeDirsFrom (fails : (disk.makeDirsFrom place names).1 = false) (last : Text) :
    (disk.makeDirsFrom place names).2.walk? place (names ++ [last]) = none := by
  have noDirectory {disk : Disk} {place : Path} (fails : (disk.makeDir place).1 = false)
      (names : Path) (name : Text) : (disk.makeDir place).2.walk? place (name :: names) = none := by
    rw [makeDir] at fails ⊢
    cases standing : disk.entry? place with
    | some entry =>
      cases entry with
      | directory => simp [standing] at fails
      | file content => simp [walk?, standing]
    | none =>
      simp only [standing] at fails ⊢
      split at fails
      · cases fails
      · next noNames => simp [noNames, walk?, standing]
  induction names generalizing disk place with
  | nil => exact noDirectory fails [] last
  | cons name others ih =>
    rw [makeDirsFrom] at fails ⊢
    rcases made : disk.makeDir place with ⟨_ | _, middle⟩
    · have stops : (disk.makeDir place).2.walk? place (name :: (others ++ [last])) = none :=
        noDirectory (by rw [made]) (others ++ [last]) name
      rw [made] at stops
      exact stops
    · simp only [made] at fails ⊢
      rw [List.cons_append, walk?]
      split
      · exact ih fails
      · rfl

theorem IsProper.makeDirs (proper : disk.IsProper) (names : Path) :
    (disk.makeDirs names).2.IsProper :=
  fun found => proper ((furnished_makeDirsFrom disk [] names).file_of_file found)

theorem read?_of_place?_eq_none (leadsNowhere : disk.place? path = none) :
    disk.read? path = none := by
  simp [read?, find?, leadsNowhere]

/-- Names lead on from the root only if it is a directory. -/
theorem entry?_root_of_place? (isPath : path ≠ []) (leads : disk.place? path = some place) :
    disk.entry? [] = some .directory := by
  obtain ⟨name, names, rfl⟩ := List.exists_cons_of_ne_nil isPath
  rw [place?, walk?] at leads
  split at leads
  · next isDirectory => exact isDirectory
  · cases leads

/-- What cannot be written at a path is not in the way of a file that could be read there. -/
theorem read?_of_write?_eq_none (proper : disk.IsProper) (isPath : path ≠ [])
    (refused : disk.write? path text = none) : disk.read? path = none := by
  cases isPlace : disk.place? path with
  | none => exact read?_of_place?_eq_none isPlace
  | some place =>
    rw [read?, find?, isPlace, Option.bind_some]
    split
    · next content isFile =>
      have notRoot : place ≠ [] := by
        rintro rfl
        rw [entry?_root_of_place? isPath isPlace] at isFile
        cases isFile
      have improper : place ≠ [] → ∃ name ∈ place, Path.isName name = false := by
        simpa [write?, isPlace, isFile] using refused
      obtain ⟨name, member, noName⟩ := improper notRoot
      have isName := List.all_eq_true.mp (proper isFile) name member
      rw [noName] at isName
      cases isName
    · rfl

/-- A write that fails leaves nothing that can be read at its path. -/
theorem read?_put_of_error (proper : disk.IsProper) (isPath : path ≠ [])
    (fails : (disk.put path text).1 ≠ .ok ()) : (disk.put path text).2.read? path = none := by
  have properMiddle : (disk.makeDirs path.dropLast).2.IsProper := proper.makeDirs _
  rw [put] at fails ⊢
  rcases made : disk.makeDirs path.dropLast with ⟨_ | _, middle⟩ <;> simp only [made] at fails ⊢
  · have stops : (disk.makeDirs path.dropLast).2.walk? []
        (path.dropLast ++ [path.getLast isPath]) = none :=
      walk?_of_makeDirsFrom (by rw [← makeDirs, made]) (path.getLast isPath)
    rw [List.dropLast_concat_getLast isPath, made] at stops
    exact read?_of_place?_eq_none stops
  · rw [made] at properMiddle
    cases written : middle.write? path text with
    | some final => simp [written] at fails
    | none => exact read?_of_write?_eq_none properMiddle isPath written

end Disk

end MdxBuild
