import Mathlib.Data.List.Basic
import MdxBuild.Cache.Manifest
import MdxBuild.Cache.Store
import MdxBuild.Proofs.Cache.Manifest
import MdxBuild.Proofs.Digest.Content
import MdxBuild.Proofs.Storage.Disk

/-!
# The cache directory

The file of an artifact is named after its stage and its digest. Digests in hexadecimal lead to
different files for different artifacts, and in a directory that only the cache writes to each of
these files can be written at any time.
-/

namespace MdxBuild

open Digest

/-! ## Digests in file names -/

namespace Digest

variable {digest : Text}

/-- A digest that can stand in the name of a file. -/
structure NamesFile (digest : Text) : Prop where
  noSlash : '/' ∉ digest
  isName : Path.isName (digest ++ ".json".toList) = true

theorem utf8Length_of_isHexDigit {text : Text} (hex : ∀ char ∈ text, isHexDigit char = true) :
    Text.utf8Length text = text.length := by
  induction text with
  | nil => rfl
  | cons char rest ih =>
    have digit := hex char List.mem_cons_self
    have oneByte : char.utf8Size = 1 := by
      simp only [isHexDigit, Char.isDigit, Bool.or_eq_true, Bool.and_eq_true,
        decide_eq_true_eq, Char.le_def] at digit
      rw [Char.utf8Size_eq_one_iff]
      rcases digit with ⟨-, high⟩ | ⟨-, high⟩ <;> exact UInt32.le_trans high (by decide)
    rw [Text.utf8Length_cons, ih fun other member => hex other (List.mem_cons_of_mem _ member),
      oneByte, List.length_cons, Nat.add_comm]

/-- Hexadecimal digits can stand in the name of a file, unless there are too many of them. -/
theorem namesFile_of_digits (digits : ∀ char ∈ digest, isHexDigit char = true)
    (short : digest.length ≤ 250) : NamesFile digest where
  noSlash member := absurd (digits _ member) (by decide)
  isName := by
    have noNull : '\x00' ∉ digest ++ ".json".toList := by
      rw [List.mem_append, not_or]
      exact ⟨fun member => absurd (digits _ member) (by decide), by decide⟩
    have fits : Text.utf8Length (digest ++ ".json".toList) ≤ Path.longestName := by
      rw [Text.utf8Length_append, utf8Length_of_isHexDigit digits]
      exact Nat.add_le_add_right short 5
    rw [Path.isName, Bool.and_eq_true, Bool.and_eq_true]
    exact ⟨⟨by simp, decide_eq_true fits⟩, by simpa using noNull⟩

theorem namesFile_of_isHex (hex : isHex digest = true) : NamesFile digest := by
  rw [isHex, Bool.and_eq_true, decide_eq_true_eq, List.all_eq_true] at hex
  exact namesFile_of_digits hex.2 (by omega)

end Digest

namespace Stage

variable {stage other : Stage} {digest key : Text}

theorem slash_notMem_name (stage : Stage) : '/' ∉ stage.name := by
  cases stage <;> decide

theorem isName_name (stage : Stage) : Path.isName stage.name = true := by
  cases stage <;> decide

theorem name_ne_up (stage : Stage) : stage.name ≠ Path.up := by
  cases stage <;> decide

theorem path_eq_filter (stage : Stage) (digest : Text) :
    stage.path digest = stage.name :: ((digest ++ ".json".toList).splitOn '/').filter
      fun name => !name.isEmpty && name != ['.'] := by
  have written : stage.name ++ ['/'] ++ digest ++ ".json".toList =
      stage.name ++ '/' :: (digest ++ ".json".toList) := by simp
  have named : (!stage.name.isEmpty && stage.name != ['.']) = true := by cases stage <;> decide
  rw [path, written, Path.ofText, List.splitOn_append_cons_self,
    List.splitOn_eq_singleton (slash_notMem_name stage), List.singleton_append,
    List.filter_cons, if_pos named]

/-- Every digest spells a path below the directory of the stage. -/
theorem path_ne_nil (stage : Stage) (digest : Text) : stage.path digest ≠ [] := by
  rw [path_eq_filter]
  exact List.cons_ne_nil _ _

theorem slash_notMem_file (noSlash : '/' ∉ digest) : '/' ∉ digest ++ ".json".toList := by
  rw [List.mem_append, not_or]
  exact ⟨noSlash, by decide⟩

/-- The file of a digest without slashes lies in the directory of the stage. -/
theorem path_of_noSlash (noSlash : '/' ∉ digest) :
    stage.path digest = [stage.name, digest ++ ".json".toList] := by
  have noDot : digest ++ ".json".toList ≠ ['.'] := by
    intro same
    have lengths := congrArg List.length same
    simp at lengths
  have fileNamed : (!(digest ++ ".json".toList).isEmpty && digest ++ ".json".toList != ['.']) =
      true := by
    rw [Bool.and_eq_true, bne_iff_ne]
    exact ⟨by simp, noDot⟩
  rw [path_eq_filter, List.splitOn_eq_singleton (slash_notMem_file noSlash), List.filter_cons,
    if_pos fileNamed, List.filter_nil]

theorem path_of_namesFile (names : NamesFile digest) :
    stage.path digest = [stage.name, digest ++ ".json".toList] :=
  path_of_noSlash names.noSlash

theorem toText_path (noSlash : '/' ∉ digest) :
    (stage.path digest).toText = stage.name ++ '/' :: (digest ++ ".json".toList) := by
  rw [path_of_noSlash noSlash]
  simp [Path.toText, List.intercalate]

theorem slash_mem_path (stage : Stage) (names : NamesFile digest) :
    '/' ∈ (stage.path digest).toText := by
  rw [toText_path names.noSlash]
  simp

/-- A place below the root is not that of an artifact. -/
theorem ne_path_of_noSlash {place : Path} (stage : Stage) (names : NamesFile digest)
    (noSlash : '/' ∉ place.toText) : place.toText ≠ (stage.path digest).toText := by
  intro same
  rw [same] at noSlash
  exact noSlash (slash_mem_path stage names)

theorem slash_notMem_toText_name (stage : Stage) : '/' ∉ Path.toText [stage.name] := by
  simpa [Path.toText] using slash_notMem_name stage

/-- Different artifacts have different files. -/
theorem path_injective (noSlash : '/' ∉ digest) (noSlashKey : '/' ∉ key)
    (same : (other.path key).toText = (stage.path digest).toText) :
    other = stage ∧ key = digest := by
  rw [toText_path noSlash, toText_path noSlashKey,
    List.append_cons_inj_of_notMem (slash_notMem_name other) (slash_notMem_file noSlashKey)] at same
  exact ⟨name_injective same.1, List.append_cancel_right same.2.2⟩

theorem isDirect_path (stage : Stage) (noSlash : '/' ∉ digest) :
    (stage.path digest).IsDirect := by
  rw [path_of_noSlash noSlash]
  intro name member up
  rcases List.mem_cons.mp member with rfl | member
  · exact name_ne_up stage up
  · rw [List.mem_singleton.mp member] at up
    have lengths := congrArg List.length up
    simp [Path.up] at lengths

/-- The places that a write makes directories at, on the way to the file of an artifact. -/
theorem slash_notMem_placesAlong {place : Path}
    (member : place ∈ Disk.placesAlong [] [stage.name]) : '/' ∉ place.toText := by
  rw [Disk.placesAlong, Disk.placesAlong, Disk.next_of_ne (name_ne_up stage), List.nil_append]
    at member
  rcases List.mem_cons.mp member with rfl | member
  · simp [Path.toText]
  · rw [List.mem_singleton.mp member]
    exact slash_notMem_toText_name stage

end Stage

namespace Disk

variable {disk : Disk} {stage other : Stage} {digest key text : Text} {content : Option Text}

/-- The file of an artifact is there, with a content. -/
def Stores (disk : Disk) (stage : Stage) (digest : Text) (content : Option Text) : Prop :=
  disk.entries.find? (stage.path digest).toText = some (.file content)

theorem entry?_path (names : NamesFile digest) :
    disk.entry? (stage.path digest) = disk.entries.find? (stage.path digest).toText := by
  have notAbove : (stage.path digest).isAbove = false := by
    rw [Stage.path_of_namesFile names]
    simp [Path.isAbove, stage.name_ne_up]
  rw [ entry?, notAbove]
  rfl

theorem stores_of_read? (names : NamesFile digest)
    (read : disk.read? (stage.path digest) = some text) :
    disk.Stores stage digest (some text) := by
  rw [Stores, ← entry?_path names]
  exact entry?_of_read? (Stage.isDirect_path _ names.noSlash) read

theorem stores_of_stores_remove {path : Path}
    (stores : (disk.remove path).Stores stage digest content) :
    disk.Stores stage digest content :=
  find?_of_find?_remove stores

/-- Removing the file of an artifact changes nothing that is read from another one. -/
theorem read?_remove_path_of_ne (noSlash : '/' ∉ digest) (noSlashKey : '/' ∉ key)
    (different : ¬(other = stage ∧ key = digest)) :
    (disk.remove (stage.path digest)).read? (other.path key) = disk.read? (other.path key) :=
  read?_remove_of_ne (Stage.isDirect_path stage noSlash) (Stage.isDirect_path other noSlashKey)
    fun same => different (Stage.path_injective noSlash noSlashKey same)

/-- A write into the file of an artifact changes no other one. -/
theorem stores_of_stores_put (names : NamesFile digest) (namesKey : NamesFile key)
    (stores : (disk.put (stage.path digest) text).2.Stores other key content) :
    disk.Stores other key content ∨ other = stage ∧ key = digest ∧ content = some text := by
  rcases find?_put (Stage.isDirect_path _ names.noSlash) stores with
    before | ⟨isDirectory, -⟩ | ⟨isFile, same⟩
  · exact .inl before
  · cases isDirectory
  · obtain ⟨sameStage, sameDigest⟩ := Stage.path_injective names.noSlash namesKey.noSlash same
    exact .inr ⟨sameStage, sameDigest, by simpa using isFile⟩

/-- What no removal of a file ends holds after the removal of the files of artifacts. -/
theorem preserved_of_removes (holds : Disk → Prop)
    (removes : ∀ {disk : Disk} {path : Path}, holds disk → holds (disk.remove path))
    (entries : List (Stage × Text)) (start : holds disk) :
    holds (entries.foldl (fun left entry => left.remove (entry.1.path entry.2)) disk) := by
  induction entries generalizing disk with
  | nil => exact start
  | cons entry others ih => exact ih (removes start)

theorem isDirect_manifest : Path.IsDirect [Manifest.fileName] := by
  intro name member
  rw [List.mem_singleton.mp member]
  decide

/-- The file of the manifest is that of no artifact. -/
theorem stores_of_stores_putManifest (namesKey : NamesFile key)
    (stores : (disk.put [Manifest.fileName] text).2.Stores other key content) :
    disk.Stores other key content := by
  rcases find?_put isDirect_manifest stores with before | ⟨isDirectory, -⟩ | ⟨-, same⟩
  · exact before
  · cases isDirectory
  · exact absurd same.symm (other.ne_path_of_noSlash namesKey (by decide))

/-- A write into the file of an artifact makes no directory in the place of another one. -/
theorem noDirectory_put (names : NamesFile digest) (namesKey : NamesFile key)
    (free : disk.entries.find? (other.path key).toText ≠ some .directory) :
    (disk.put (stage.path digest) text).2.entries.find? (other.path key).toText ≠
      some .directory := by
  intro found
  rcases find?_put (Stage.isDirect_path _ names.noSlash) found with
    before | ⟨-, place, member, same⟩ | ⟨isFile, -⟩
  · exact free before
  · rw [Stage.path_of_namesFile names] at member
    exact other.ne_path_of_noSlash namesKey (Stage.slash_notMem_placesAlong member) same.symm
  · cases isFile

/-- A write of the manifest makes no directory in the place of an artifact. -/
theorem noDirectory_putManifest (namesKey : NamesFile key)
    (free : disk.entries.find? (other.path key).toText ≠ some .directory) :
    (disk.put [Manifest.fileName] text).2.entries.find? (other.path key).toText ≠
      some .directory := by
  intro found
  rcases find?_put isDirect_manifest found with before | ⟨-, place, member, same⟩ | ⟨isFile, -⟩
  · exact free before
  · rw [List.mem_singleton.mp member] at same
    exact other.ne_path_of_noSlash namesKey (by decide) same.symm
  · cases isFile

/-- A write makes no file in another place than its own. -/
theorem noFile_put {path : Path} {place : Text} (direct : path.IsDirect)
    (differs : place ≠ path.toText)
    (free : ∀ content, disk.entries.find? place ≠ some (.file content)) (content : Option Text) :
    (disk.put path text).2.entries.find? place ≠ some (.file content) := by
  intro found
  rcases find?_put direct found with before | ⟨isDirectory, -⟩ | ⟨-, same⟩
  · exact free content before
  · cases isDirectory
  · exact differs same

/-! ## Directories that take every artifact -/

/-- No file stands where a directory of the cache goes, and no directory where a file goes. -/
structure Ready (disk : Disk) : Prop where
  root : ∀ content, disk.entries.find? (Path.toText []) ≠ some (.file content)
  stage : ∀ (stage : Stage) (content : Option Text),
    disk.entries.find? (Path.toText [stage.name]) ≠ some (.file content)
  file : ∀ (stage : Stage) {digest : Text}, isHex digest = true →
    disk.entries.find? (stage.path digest).toText ≠ some .directory

namespace Ready

/-- A file can be written if no directory stands in its place. -/
theorem put_ok_of_free (ready : disk.Ready) (names : NamesFile digest)
    (fileFree : disk.entries.find? (stage.path digest).toText ≠ some .directory) :
    (disk.put (stage.path digest) text).1 = .ok () := by
  have direct := Stage.isDirect_path stage names.noSlash
  rw [← entry?_path names] at fileFree
  have slash := Stage.slash_mem_path stage names
  have notAbove : Path.isAbove [stage.name] = false := by cases stage <;> decide
  rw [Stage.path_of_namesFile names] at direct fileFree slash ⊢
  apply put_of_free (direct _ (by simp)) (direct _ (by simp)) (Stage.isName_name stage)
    names.isName _ _ _ fileFree
  · intro place member same
    rw [← same] at slash
    exact Stage.slash_notMem_placesAlong member slash
  · intro content
    exact ready.root content
  · intro content
    rw [ entry?, notAbove]
    exact ready.stage stage content

/-- The file of every artifact can be written. -/
theorem put_ok (ready : disk.Ready) (hex : isHex digest = true) :
    (disk.put (stage.path digest) text).1 = .ok () :=
  ready.put_ok_of_free (namesFile_of_isHex hex) (ready.file stage hex)

/-- The file of an artifact that has just been written holds this artifact. -/
theorem eq_of_stores_put (ready : disk.Ready) (hex : isHex digest = true)
    (stores : (disk.put (stage.path digest) text).2.Stores stage digest content) :
    content = some text := by
  have succeeds : (disk.put (stage.path digest) text).1 = .ok () := ready.put_ok hex
  have direct := Stage.isDirect_path stage (namesFile_of_isHex hex).noSlash
  rw [Stores, find?_put_self direct succeeds] at stores
  simpa using stores.symm

theorem remove (ready : disk.Ready) (path : Path) : (disk.remove path).Ready where
  root content found := ready.root content (find?_of_find?_remove found)
  stage stage content found := ready.stage stage content (find?_of_find?_remove found)
  file stage _ hex found := ready.file stage hex (find?_of_find?_remove found)

theorem put (ready : disk.Ready) (names : NamesFile digest) :
    (disk.put (stage.path digest) text).2.Ready := by
  have direct := Stage.isDirect_path stage names.noSlash
  constructor
  · exact noFile_put direct (stage.ne_path_of_noSlash names (by decide)) ready.root
  · intro other
    exact noFile_put direct (stage.ne_path_of_noSlash names other.slash_notMem_toText_name)
      (ready.stage other)
  · intro other key hexKey
    exact noDirectory_put names (namesFile_of_isHex hexKey) (ready.file other hexKey)

theorem putManifest (ready : disk.Ready) : (disk.put [Manifest.fileName] text).2.Ready := by
  constructor
  · exact noFile_put isDirect_manifest (by decide) ready.root
  · intro stage
    apply noFile_put isDirect_manifest _ (ready.stage stage)
    cases stage <;> decide
  · intro other key hexKey
    exact noDirectory_putManifest (namesFile_of_isHex hexKey) (ready.file other hexKey)

end Ready

/-- A directory that holds nothing, whether it has been made yet or not. -/
def IsBlank (disk : Disk) : Prop :=
  disk = {} ∨ disk = set {} [] .directory

theorem IsBlank.find?_eq_none (blank : disk.IsBlank) (content : Option Text) :
    disk.entries.find? key ≠ some (.file content) := by
  rcases blank with rfl | rfl
  · simp
  · rw [set, Dictionary.find?_insert]
    split <;> simp

/-- No directory stands in the place of an artifact. -/
theorem IsBlank.noDirectory (blank : disk.IsBlank) (names : NamesFile digest) :
    disk.entries.find? (stage.path digest).toText ≠ some .directory := by
  intro found
  rcases blank with rfl | rfl
  · simp at found
  · rw [set, Dictionary.find?_insert] at found
    split at found
    · next same => exact stage.ne_path_of_noSlash names (by decide) same.symm
    · simp at found

theorem IsBlank.ready (blank : disk.IsBlank) : disk.Ready where
  root content := blank.find?_eq_none content
  stage _ content := blank.find?_eq_none content
  file _ _ hex := blank.noDirectory (namesFile_of_isHex hex)

end Disk

end MdxBuild
