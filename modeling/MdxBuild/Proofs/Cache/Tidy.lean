import MdxBuild.Proofs.Cache.Directory
import MdxBuild.Proofs.Cache.ManifestFile

/-!
# Directories that only the cache writes to

In a directory that nobody else touches, the files of artifacts and of the manifest can be written,
and can be read wherever they stand. Writing or removing the file of one artifact changes what is
read from this file and from no other one.
-/

namespace MdxBuild.Disk

open Digest

variable {disk : Disk} {stage other : Stage} {digest key text : Text}

/-- Nothing stands in the way of the files of artifacts and of the manifest, and the directories
around a file are there. -/
structure Tidy (disk : Disk) : Prop extends disk.Ready where
  artifact : ∀ (stage : Stage) {digest : Text}, NamesFile digest →
    disk.entries.find? (stage.path digest).toText ≠ some .directory
  manifest : disk.entry? [Manifest.fileName] ≠ some .directory
  housed : ∀ {stage : Stage} {digest : Text} {content : Option Text}, NamesFile digest →
    disk.Stores stage digest content →
      disk.entry? [] = some .directory ∧ disk.entry? [stage.name] = some .directory

/-- A directory without files is tidy. -/
theorem IsBlank.tidy (blank : disk.IsBlank) : disk.Tidy where
  toReady := blank.ready
  artifact _ _ names := blank.noDirectory names
  manifest := by rcases blank with rfl | rfl <;> decide
  housed _ stores := absurd stores (blank.find?_eq_none _)

namespace Tidy

/-! ## Reading -/

/-- What is read of the file of an artifact is what it holds. -/
theorem read?_eq_some_iff (tidy : disk.Tidy) (names : NamesFile digest) :
    disk.read? (stage.path digest) = some text ↔ disk.Stores stage digest (some text) := by
  constructor
  · exact stores_of_read? names
  · intro stores
    obtain ⟨root, directory⟩ := tidy.housed names stores
    have direct := Stage.isDirect_path stage names.noSlash
    have isFile : disk.entry? (stage.path digest) = some (.file (some text)) := by
      rw [entry?_path names]
      exact stores
    have isPlace : disk.place? (stage.path digest) = some (stage.path digest) := by
      rw [Stage.path_of_namesFile names] at direct ⊢
      have directFile : digest ++ ".json".toList ≠ Path.up := direct _ (by simp)
      rw [place?, walk?, if_pos root, next_of_ne stage.name_ne_up, List.nil_append, walk?,
        if_pos directory, next_of_ne directFile]
      rfl
    simp [read?, find?, isPlace, isFile]

theorem read?_ext {after : Disk} (tidy : disk.Tidy) (tidyAfter : after.Tidy)
    (names : NamesFile digest)
    (same : ∀ {text}, after.Stores stage digest (some text) ↔
      disk.Stores stage digest (some text)) :
    after.read? (stage.path digest) = disk.read? (stage.path digest) := by
  ext text
  rw [tidyAfter.read?_eq_some_iff names, tidy.read?_eq_some_iff names, same]

/-! ## Writing artifacts -/

section Put

variable (tidy : disk.Tidy) (names : NamesFile digest)

include tidy names

theorem put_artifact_ok : (disk.put (stage.path digest) text).1 = .ok () :=
  tidy.put_ok_of_free names (tidy.artifact stage names)

theorem put_artifact : (disk.put (stage.path digest) text).2.Tidy := by
  have direct := Stage.isDirect_path stage names.noSlash
  constructor
  · exact tidy.toReady.put names
  · intro other key namesKey
    exact noDirectory_put names namesKey (tidy.artifact other namesKey)
  · intro found
    rcases find?_put direct found with before | ⟨-, place, member, same⟩ | ⟨isFile, -⟩
    · exact tidy.manifest before
    · rw [Stage.path_of_namesFile names] at member
      simp only [List.dropLast, placesAlong, next_of_ne stage.name_ne_up, List.mem_cons,
        List.not_mem_nil, or_false] at member
      rcases member with rfl | rfl <;> cases stage <;> exact absurd same (by decide)
    · cases isFile
  · intro other key content namesKey stores
    rcases stores_of_stores_put names namesKey stores with before | ⟨rfl, rfl, -⟩
    · obtain ⟨root, directory⟩ := tidy.housed namesKey before
      exact ⟨entry?_put_of_ne direct (stage.ne_path_of_noSlash names (by decide)) root,
        entry?_put_of_ne direct
          (stage.ne_path_of_noSlash names other.slash_notMem_toText_name) directory⟩
    · have along {place : Path} (member : place ∈ placesAlong [] [other.name])
          (noSlash : '/' ∉ place.toText) :
          Disk.entry? (disk.put (other.path key) text).2 place = some .directory :=
        entry?_put_along direct (tidy.put_artifact_ok names)
          (by rwa [Stage.path_of_namesFile names]) (other.ne_path_of_noSlash names noSlash)
      exact ⟨along (by simp [placesAlong]) (by decide),
        along (by simp [placesAlong, next_of_ne other.name_ne_up])
          other.slash_notMem_toText_name⟩

theorem read?_put_self :
    (disk.put (stage.path digest) text).2.read? (stage.path digest) = some text := by
  rw [(tidy.put_artifact names).read?_eq_some_iff names]
  exact find?_put_self (Stage.isDirect_path stage names.noSlash) (tidy.put_artifact_ok names)

theorem read?_put_of_ne (namesKey : NamesFile key) (different : ¬(other = stage ∧ key = digest)) :
    (disk.put (stage.path digest) text).2.read? (other.path key) =
      disk.read? (other.path key) := by
  apply tidy.read?_ext (tidy.put_artifact names) namesKey
  intro content
  constructor
  · intro stores
    rcases stores_of_stores_put names namesKey stores with before | ⟨sameStage, sameKey, -⟩
    · exact before
    · exact absurd ⟨sameStage, sameKey⟩ different
  · intro stores
    refine find?_put_of_ne (Stage.isDirect_path stage names.noSlash) ?_ stores
    exact fun same => different (Stage.path_injective names.noSlash namesKey.noSlash same)

end Put

/-! ## Removing artifacts -/

theorem remove_artifact (tidy : disk.Tidy) (names : NamesFile digest) :
    (disk.remove (stage.path digest)).Tidy where
  toReady := tidy.toReady.remove _
  artifact other key namesKey found := tidy.artifact other namesKey (find?_of_find?_remove found)
  manifest found := tidy.manifest (entry?_of_entry?_remove found)
  housed {other key content} namesKey stores := by
    have direct := Stage.isDirect_path stage names.noSlash
    have kept {place : Path} (noSlash : '/' ∉ place.toText)
        (found : disk.entry? place = some .directory) :
        Disk.entry? (disk.remove (stage.path digest)) place = some .directory := by
      rw [ entry?] at found ⊢
      split
      · rfl
      · next notAbove =>
        rw [if_neg notAbove] at found
        rw [find?_remove_of_ne direct (stage.ne_path_of_noSlash names noSlash), found]
    obtain ⟨root, directory⟩ := tidy.housed namesKey (stores_of_stores_remove stores)
    exact ⟨kept (by decide) root, kept other.slash_notMem_toText_name directory⟩

/-! ## Writing the manifest -/

section PutManifest

variable (tidy : disk.Tidy)

include tidy

theorem put_manifest_ok : (disk.put [Manifest.fileName] text).1 = .ok () :=
  (put_root_of_free (by decide) (by decide) (by decide) tidy.root tidy.manifest).1

/-- A manifest that was written is read. -/
theorem read?_put_manifest :
    (disk.put [Manifest.fileName] text).2.read? [Manifest.fileName] = some text :=
  (put_root_of_free (by decide) (by decide) (by decide) tidy.root tidy.manifest).2

theorem put_manifest : (disk.put [Manifest.fileName] text).2.Tidy where
  toReady := tidy.toReady.putManifest
  artifact other key namesKey := noDirectory_putManifest namesKey (tidy.artifact other namesKey)
  manifest found := by
    rcases find?_put isDirect_manifest found with before | ⟨-, place, member, same⟩ | ⟨isFile, -⟩
    · exact tidy.manifest before
    · rw [List.mem_singleton.mp member] at same
      exact absurd same (by decide)
    · cases isFile
  housed {other key content} namesKey stores := by
    obtain ⟨root, directory⟩ := tidy.housed namesKey (stores_of_stores_putManifest namesKey stores)
    refine ⟨entry?_put_of_ne isDirect_manifest (by decide) root,
      entry?_put_of_ne isDirect_manifest ?_ directory⟩
    cases other <;> decide

theorem read?_put_manifest_of_artifact (namesKey : NamesFile key) :
    (disk.put [Manifest.fileName] text).2.read? (other.path key) =
      disk.read? (other.path key) := by
  apply tidy.read?_ext tidy.put_manifest namesKey
  intro content
  refine ⟨stores_of_stores_putManifest namesKey, find?_put_of_ne isDirect_manifest ?_⟩
  exact (other.ne_path_of_noSlash namesKey (by decide)).symm

end PutManifest

end Tidy

end MdxBuild.Disk
