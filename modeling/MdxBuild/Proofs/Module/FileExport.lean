import MdxBuild.Proofs.Json.Printing
import MdxBuild.Proofs.Module.Newlines
import MdxBuild.Proofs.Text.Newline

/-!
# The file that a module names

The statement that exports the file stands in the last line but one of a component module, so it can
be told from the text, also after line breaks have been unified. Modules for different files are
therefore different, unless the compiled code declares `file` itself: then the statement is left out
and the module is the same whatever the file.
-/

namespace MdxBuild

/-! ## Names of components -/

namespace DefaultExport

variable {text name rest code : Text} {char : Char}

theorem isNamePart_of_isNameStart (isStart : isNameStart char = true) : isNamePart char = true := by
  simp only [isNameStart, Bool.or_eq_true, decide_eq_true_eq] at isStart
  rcases isStart with (isAlpha | rfl) | rfl
  · have isAlphanum : char.isAlphanum = true := Bool.or_eq_true_iff.mpr (.inl isAlpha)
    rw [isNamePart, Text.isWord, if_pos (Text.toNat_lt_of_isAlphanum isAlphanum), Text.isAsciiWord,
      isAlphanum]
    rfl
  · decide
  · decide

/-- A name that is read whole. -/
def IsName (name : Text) : Prop :=
  ∃ first others, name = first :: others ∧ isNameStart first = true ∧
    ∀ char ∈ others, isNamePart char = true

theorem IsName.isNamePart (isName : IsName name) (member : char ∈ name) :
    isNamePart char = true := by
  obtain ⟨first, others, rfl, isStart, areParts⟩ := isName
  rcases List.mem_cons.mp member with rfl | later
  · exact isNamePart_of_isNameStart isStart
  · exact areParts char later

/-- The name at the start of a text ends where no further part of a name follows. -/
theorem name?_eq_some_iff : name? text = some (name, rest) ↔
    text = name ++ rest ∧ IsName name ∧ ∀ char ∈ rest.head?, isNamePart char = false := by
  constructor
  · intro found
    cases text with
    | nil => cases found
    | cons first others =>
      rw [name?] at found
      split at found
      · next isStart =>
        obtain ⟨rfl, rfl⟩ := Prod.mk.inj (Option.some.inj found)
        refine ⟨?_, ⟨first, _, rfl, isStart, fun _ => List.mem_takeWhile_imp⟩, ?_⟩
        · rw [List.cons_append, List.takeWhile_append_dropWhile]
        · intro next isHead
          have stops := List.head?_dropWhile_not isNamePart others
          rw [Option.mem_def.mp isHead] at stops
          simpa using stops
      · cases found
  · rintro ⟨rfl, ⟨first, others, rfl, isStart, areParts⟩, stops⟩
    rw [List.cons_append, name?, if_pos isStart]
    cases rest with
    | nil =>
      rw [List.append_nil, List.takeWhile_eq_self_iff.mpr areParts,
        List.dropWhile_eq_nil_iff.mpr areParts]
    | cons next rest =>
      rw [Text.takeWhile_append_cons areParts (stops next rfl),
        Text.dropWhile_append_cons areParts (stops next rfl)]

theorem isName_contentComponent : IsName contentComponent :=
  ⟨'M', "DXContent".toList, rfl, rfl, List.all_eq_true.mp rfl⟩

/-- The component that a module exports has a proper name. -/
theorem isName_component : IsName ((normalize code).2.getD contentComponent) := by
  rw [normalize]
  split
  · next before head found =>
    obtain ⟨-, rest, -, isHead⟩ := Text.firstAtLineStart?_eq_some found
    simp only [functionHead?, Option.bind_eq_bind, Option.bind_eq_some_iff] at isHead
    obtain ⟨exported, -, afterFunction, -, rest, -, same⟩ := isHead
    rw [← Option.some.inj same, Option.getD_some]
    cases named : name? ((starMark afterFunction).2.dropWhile Text.isBlank) with
    | none => exact isName_contentComponent
    | some entry => exact (name?_eq_some_iff.mp named).2.1
  · split
    · next before name rest found =>
      obtain ⟨-, start, -, isBinding⟩ := Text.firstAtLineStart?_eq_some found
      simp only [binding?, Option.bind_eq_bind, Option.bind_eq_some_iff] at isBinding
      obtain ⟨exported, -, ⟨first, afterName⟩, named, same⟩ := isBinding
      obtain ⟨rfl, -⟩ := Prod.mk.inj (Option.some.inj same)
      exact (name?_eq_some_iff.mp named).2.1
    · exact isName_contentComponent

end DefaultExport

/-! ## Component modules -/

namespace Metadata

open Text

variable {frontmatter otherFrontmatter : Json} {headings otherHeadings : List HeadingRecord}
  {file otherFile code otherCode : Text}

/-- The compiled module declares `file` itself. -/
def declaresFile (code : Text) : Bool :=
  exported "file".toList (DefaultExport.normalize code).1

/-- The metadata exports in front of that of the file. -/
def earlierExports (frontmatter : Json) (headings : List HeadingRecord) : List (Text × Text) :=
  [("frontmatter".toList, constant "frontmatter".toList frontmatter.render),
    ("getHeadings".toList, headingsFunction headings)]

/-- The export of the file comes last. -/
theorem exports_eq :
    exports ⟨frontmatter, headings, file, none⟩ = earlierExports frontmatter headings ++
      [("file".toList, constant "file".toList (Json.quote file))] :=
  rfl

theorem postProcess_eq (metadata : Metadata) (code : Text) :
    metadata.postProcess code =
      metadata.wrap ((DefaultExport.normalize code).2.getD DefaultExport.contentComponent)
        (DefaultExport.normalize code).1 :=
  rfl

/-- If the compiled module declares `file`, the component module does not depend on the file. -/
theorem postProcess_of_declaresFile (declares : declaresFile code = true) :
    postProcess ⟨frontmatter, headings, file, none⟩ code =
      postProcess ⟨frontmatter, headings, otherFile, none⟩ code := by
  rw [declaresFile] at declares
  have leftOut (entry : Text × Text) (isFile : entry.1 = "file".toList) :
      [entry].filter (fun entry => !exported entry.1 (DefaultExport.normalize code).1) = [] := by
    rw [List.filter_cons_of_neg, List.filter_nil]
    rw [isFile, declares]
    decide
  rw [postProcess_eq, postProcess_eq, wrap, wrap, exports_eq, exports_eq, List.filter_append,
    List.filter_append, leftOut _ rfl, leftOut _ rfl]

theorem isComplete_constant (name value : Text) : IsComplete (constant name value) :=
  isComplete_append rfl _

theorem isComplete_headingsFunction (headings : List HeadingRecord) :
    IsComplete (headingsFunction headings) :=
  isComplete_append rfl _

theorem isComplete_of_mem_earlierExports {entry : Text × Text}
    (member : entry ∈ earlierExports frontmatter headings) : IsComplete entry.2 := by
  simp only [earlierExports, List.mem_cons, List.not_mem_nil, or_false] at member
  rcases member with rfl | rfl
  · exact isComplete_constant _ _
  · exact isComplete_headingsFunction _

/-- What stands in front of the statement that exports the file. -/
def front (frontmatter : Json) (headings : List HeadingRecord) (code : Text) : Text :=
  trimEnd (DefaultExport.normalize code).1 ++ "\n\n".toList ++
    ((earlierExports frontmatter headings).filter fun entry =>
      !exported entry.1 (DefaultExport.normalize code).1).flatMap Prod.snd

theorem isComplete_front : IsComplete (front frontmatter headings code) := by
  have isBreak : "\n\n".toList.getLast? = some '\n' := rfl
  apply (isComplete_append isBreak _).append
  apply isComplete_flatMap
  intro entry member
  exact isComplete_of_mem_earlierExports (List.mem_of_mem_filter member)

/-- What a statement that exports a constant starts with. -/
def constantHead (name : Text) : Text :=
  "export const ".toList ++ name ++ " = ".toList

/-- The statement that exports a file, without its line break. -/
def fileStatement (file : Text) : Text :=
  constantHead "file".toList ++ Json.quote file ++ [';']

/-- The statement that exports the component, without its line break. -/
def componentStatement (code : Text) : Text :=
  "export default ".toList ++
    (DefaultExport.normalize code).2.getD DefaultExport.contentComponent ++ [';']

theorem append_semicolon_newline (text : Text) :
    text ++ ";\n".toList = text ++ [';'] ++ ['\n'] := by
  rw [List.append_assoc]
  rfl

theorem constant_file_eq :
    constant "file".toList (Json.quote file) = fileStatement file ++ ['\n'] :=
  append_semicolon_newline (constantHead "file".toList ++ Json.quote file)

theorem fileStatement_append_eq (text : Text) :
    fileStatement file ++ text =
      constantHead "file".toList ++ (Json.quote file ++ ([';'] ++ text)) := by
  rw [← List.append_assoc, ← List.append_assoc]
  rfl

/-- If the compiled module does not declare `file`, the statement that exports it is the last line
but one. -/
theorem postProcess_of_undeclared (undeclared : declaresFile code = false) :
    postProcess ⟨frontmatter, headings, file, none⟩ code =
      front frontmatter headings code ++
        (fileStatement file ++ ['\n'] ++ (componentStatement code ++ ['\n'])) := by
  rw [declaresFile] at undeclared
  have remains (statement : Text) :
      [("file".toList, statement)].filter
        (fun entry => !exported entry.1 (DefaultExport.normalize code).1) =
          [("file".toList, statement)] := by
    rw [List.filter_cons_of_pos, List.filter_nil]
    rw [undeclared]
    rfl
  have isEnd : componentStatement code ++ ['\n'] = "export default ".toList ++
      (DefaultExport.normalize code).2.getD DefaultExport.contentComponent ++ ";\n".toList :=
    (append_semicolon_newline _).symm
  rw [postProcess_eq, wrap, exports_eq, List.filter_append, remains, List.flatMap_append,
    List.flatMap_singleton, constant_file_eq, isEnd, front]
  simp only [List.append_assoc]

/-! ### The last two lines -/

theorem toNat_lt_of_isLineBreak {char : Char} (isBreak : isLineBreak char = true) :
    char.toNat < 32 := by
  rw [isLineBreak, Bool.or_eq_true, decide_eq_true_eq, decide_eq_true_eq] at isBreak
  rcases isBreak with rfl | rfl <;> decide

theorem isNamePart_of_isLineBreak {char : Char} (isBreak : isLineBreak char = true) :
    DefaultExport.isNamePart char = false := by
  rw [isLineBreak, Bool.or_eq_true, decide_eq_true_eq, decide_eq_true_eq] at isBreak
  rcases isBreak with rfl | rfl <;> decide

/-- Words of statements have no line breaks. -/
theorem notMem_of_isLineBreak {char : Char} {word : Text} (isBreak : isLineBreak char = true)
    (noBreak : word.all (fun char => !isLineBreak char) = true) : char ∉ word := by
  intro member
  have other := List.all_eq_true.mp noBreak char member
  rw [isBreak] at other
  cases other

theorem notMem_fileStatement {char : Char} (isBreak : isLineBreak char = true) :
    char ∉ fileStatement file := by
  have notQuoted : char ∉ Json.quote file :=
    (Json.isPrintable_quote file).notMem (toNat_lt_of_isLineBreak isBreak)
  exact List.not_mem_append (List.not_mem_append
    (notMem_of_isLineBreak isBreak (by decide)) notQuoted) (notMem_of_isLineBreak isBreak rfl)

theorem notMem_componentStatement {char : Char} (isBreak : isLineBreak char = true) :
    char ∉ componentStatement code := by
  have notNamed : char ∉ (DefaultExport.normalize code).2.getD DefaultExport.contentComponent := by
    intro member
    have isPart := DefaultExport.isName_component.isNamePart member
    rw [isNamePart_of_isLineBreak isBreak] at isPart
    cases isPart
  exact List.not_mem_append (List.not_mem_append
    (notMem_of_isLineBreak isBreak (by decide)) notNamed) (notMem_of_isLineBreak isBreak rfl)

/-- The last two lines of a module that does not declare `file` are the same if line breaks are
unified. -/
theorem lines_postProcess_of_undeclared (undeclared : declaresFile code = false) :
    lines (unifyNewlines (postProcess ⟨frontmatter, headings, file, none⟩ code)) =
      lines (unifyNewlines (front frontmatter headings code)) ++
        [fileStatement file ++ ['\n'], componentStatement code ++ ['\n']] := by
  rw [postProcess_of_undeclared undeclared]
  exact lines_unifyNewlines isComplete_front (notMem_fileStatement rfl)
    (notMem_componentStatement rfl) (notMem_fileStatement rfl) (notMem_componentStatement rfl)

/-- Modules for different files are different, also if line breaks are unified. -/
theorem file_eq_of_unifyNewlines_eq (undeclared : declaresFile code = false)
    (undeclaredOther : declaresFile otherCode = false)
    (same : unifyNewlines (postProcess ⟨frontmatter, headings, file, none⟩ code) =
      unifyNewlines (postProcess ⟨otherFrontmatter, otherHeadings, otherFile, none⟩ otherCode)) :
    file = otherFile := by
  have sameLines := congrArg lines same
  rw [lines_postProcess_of_undeclared undeclared, lines_postProcess_of_undeclared undeclaredOther]
    at sameLines
  have sameLine := (List.cons.inj (List.append_inj' sameLines (by simp)).2).1
  rw [fileStatement_append_eq, fileStatement_append_eq] at sameLine
  exact (Json.quote_append_inj (List.append_cancel_left sameLine)).1

end Metadata

end MdxBuild
