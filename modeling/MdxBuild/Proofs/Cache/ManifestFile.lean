import MdxBuild.Proofs.Cache.Artifact
import MdxBuild.Proofs.Cache.Manifest
import MdxBuild.Proofs.Json.Record

/-!
# The file of the manifest

The manifest is printed for people, with a line for each document. Whatever characters stand in ids
and digests, it is read back as it was.
-/

namespace MdxBuild

open Json

/-- A number within the bound of its field is read behind a blank, too. -/
theorem readBounded_behindBlank {expected : Text} {greatest number : Nat}
    (fits : number ≤ greatest) (small : greatest ≤ greatestUnsigned) {rest : Text}
    (ended : endsNumber rest = true) :
    readBounded expected greatest (' ' :: (Text.ofNat number ++ rest)) = .ok (number, rest) :=
  readsUnless_bounded fits small rest ended

namespace Manifest

/-- A dictionary is read from the lines of its object if its values are read. -/
theorem readDictionary_lines {α : Type} {readItem : Text → Except Fault (α × Text)}
    {encode : α → Json} {level : Nat}
    (reads : ∀ value rest, endsNumber rest = true →
      readItem (' ' :: (renderIndented (level + 1) (encode value) ++ rest)) = .ok (value, rest))
    (dictionary : Dictionary α) (rest : Text) :
    readDictionary readItem
        (' ' :: (renderIndented level (ofDictionary (dictionary.map encode)) ++ rest)) =
      .ok (dictionary, rest) := by
  have start (text : Text) : skipBlanks (' ' :: '{' :: text) = '{' :: text := by
    change skipBlanks ('{' :: text) = _
    exact skipBlanks_cons rfl
  rw [ofDictionary, Dictionary.map, renderIndented_object, List.cons_append, List.append_assoc,
    List.append_assoc, List.singleton_append, readDictionary, start]
  simp only [if_true]
  refine (readMembers_lines Dictionary.insert ?_ .empty rest).trans ?_
  · intro member _ entries rest ended
    rw [afterColon_cons]
    change (readItem _).bind _ = _
    rw [reads member.2 rest ended]
    rfl
  · rw [← Dictionary.insertAll, Dictionary.insertAll_entries]

theorem readText_behindBlank (expected value rest : Text) (level : Nat) :
    readText expected (' ' :: (renderIndented level (string value) ++ rest)) =
      .ok (value, rest) := by
  have start : skipBlanks (' ' :: (quote value ++ rest)) = quote value ++ rest := by
    rw [quote_append]
    exact skipBlanks_quote _
  have readsText := readText_render expected value rest
  simp only [render, renderScalar, readText] at readsText
  rw [renderIndented, renderScalar, readText, start]
  · rw [quote_append] at readsText ⊢
    rwa [skipBlanks_quote] at readsText
  all_goals simp

/-- The manifest is read back from its file. -/
theorem ofText_renderPretty {manifest : Manifest} (current : manifest.version = formatVersion) :
    ofText manifest.toJson.renderPretty = manifest := by
  obtain ⟨version, namespaces⟩ := manifest
  obtain rfl : version = formatVersion := current
  let documents : Dictionary Text → Json := fun documents => ofDictionary (documents.map .string)
  let afterVersion : Text := ',' :: (indentation 1 ++ (quote "namespaces".toList ++ ':' ::
    (' ' :: (renderIndented 1 (ofDictionary (namespaces.map documents)) ++ ['\n', '\x7d']))))
  let members : Text := indentation 1 ++ (quote "version".toList ++ ':' ::
    (' ' :: (Text.ofNat formatVersion ++ afterVersion)))
  have printed : (toJson ⟨formatVersion, namespaces⟩).renderPretty = '{' :: members := by
    simp [toJson, renderPretty, renderIndented, renderScalar, indentMembers, Number.render,
      integerText, Json.ofNat, members, afterVersion, documents]
    rfl
  obtain ⟨bound, enough⟩ : ∃ bound, members.length + 1 = bound + 3 :=
    ⟨_, by simp [members, afterVersion]; rfl⟩
  have readsNamespaces : readDictionary (readDictionary (readText "a string".toList))
      (' ' :: (renderIndented 1 (ofDictionary (namespaces.map documents)) ++ ['\n', '\x7d'])) =
        .ok (namespaces, ['\n', '\x7d']) := by
    apply readDictionary_lines
    intro value rest ended
    apply readDictionary_lines
    intro value rest ended
    apply readText_behindBlank
  have reads : format.read ('{' :: members) = .ok (⟨formatVersion, namespaces⟩, []) := by
    rw [Record.read_object, enough, readMembers_blanks fun char => isBlank_indentation 1,
      readMembers_first, Record.member_of_field rfl rfl, Field.fill_of,
      readBounded_behindBlank (by decide) (by decide) rfl]
    simp only [Except.map, Except.bind]
    rw [readMembers_comma_blanks fun char => isBlank_indentation 1, readMembers_next,
      Record.member_of_field rfl rfl, Field.fill_of, readsNamespaces]
    simp only [Except.map, Except.bind]
    rfl
  rw [ofText, printed, parseAs, reads]
  rfl

end Manifest

end MdxBuild
