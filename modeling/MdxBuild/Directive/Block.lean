import MdxBuild.Component.Registry
import MdxBuild.Directive.Attribute
import MdxBuild.Markdown.Fence

/-!
# Directive blocks

A line `:::name[title]{attributes}` opens a directive block and a line `:::` closes the innermost
one. A block is rendered as the tags of its component; both tags stand behind the structural head
of the opening line. Where the component holds Markdown, an empty line sets off the content.
-/

namespace MdxBuild

open Text

/-- The three colons that mark the lines of a directive. -/
def directiveMarker : Text :=
  [':', ':', ':']

/-- An opened directive block of a registered directive. -/
structure Block where
  /-- The name of the directive, in lower case. -/
  name : Text
  /-- The title in brackets, trimmed. -/
  title : Option Text
  /-- The attributes that are passed on. -/
  attributes : Text
  /-- The structural head of the opening line. -/
  linePrefix : Text
  mapping : DirectiveMapping
  slots : SlotLayout
deriving DecidableEq, Repr

/-- An opening line cut into the directive's name, the title in brackets and the rest. -/
structure OpeningLine where
  name : Text
  title : Option Text
  trailing : Text
deriving DecidableEq, Repr

namespace OpeningLine

/-- A character of a directive's name behind the first one. -/
def isNameChar (char : Char) : Bool :=
  char.isAlphanum || char = '-'

/-- The title in brackets at the start of a text, and the rest. -/
def splitTitle : Text → Option Text × Text
  | [] => (none, [])
  | char :: rest =>
    if char = '[' then
      match rest.dropWhile (· != ']') with
      | [] => (none, char :: rest)
      | _ :: after => (some (rest.takeWhile (· != ']')), after)
    else (none, char :: rest)

/-- Reads the text of an opening line behind its structural head and without blanks at its end. -/
def read? (text : Text) : Option OpeningLine :=
  match after? directiveMarker text with
  | none => none
  | some afterMarker =>
    match afterMarker with
    | [] => none
    | first :: _ =>
      if first.isAlpha then
        let (title, trailing) := splitTitle (afterMarker.dropWhile isNameChar)
        some ⟨afterMarker.takeWhile isNameChar, title, trailing⟩
      else none

/-- The text between the braces around the attributes, or the text itself. -/
def unbrace (text : Text) : Text :=
  match after? ['{'] text with
  | none => text
  | some inner =>
    match ['}'].isSuffixOf? inner with
    | none => text
    | some attributes => attributes

end OpeningLine

namespace Block

/-- The component that renders the block. -/
def component (block : Block) : Text :=
  block.mapping.component

/-- The block that a line opens, given in its structural head and the rest. -/
def open? (registry : Registry) (head remainder : Text) : Option Block := do
  let line ← OpeningLine.read? (trimEnd remainder)
  let mapping ← registry.directive? (asciiLower line.name)
  some {
    name := asciiLower line.name
    title := line.title.map trim
    attributes := Attribute.passedOn (OpeningLine.unbrace (trim line.trailing))
    linePrefix := head
    mapping
    slots := registry.slotsOf mapping.component }

/-- The attribute that names the directive a tag stems from. -/
def provenanceAttribute : Text :=
  "data-directive".toList

/-- The value that an injected prop has in the block, if any. -/
def propValue? (block : Block) : PropSource → Option Text
  | .directiveName => some block.name
  | .bracketTitle => block.title
  | .literal value => some value

/-- The injected props that have a value, in the order of the mapping. -/
def injected (block : Block) : List (Text × Text) :=
  block.mapping.injectProps.filterMap fun prop =>
    (block.propValue? prop.source).map fun value => (prop.name, value)

/-- The title, unless an injected prop is a title already. -/
def ownTitle (block : Block) : List (Text × Text) :=
  match block.title with
  | none => []
  | some title =>
    if block.injected.any fun pair => pair.1 == "title".toList then []
    else [("title".toList, title)]

/-- The names and values of the attributes that the opening tag spells out. -/
def pairs (block : Block) : List (Text × Text) :=
  (provenanceAttribute, block.name) :: (block.injected ++ block.ownTitle)

/-- Everything behind the component name in the opening tag. -/
def attributeText (block : Block) : Text :=
  [' '].intercalate (block.pairs.map (fun pair => Attribute.quoted pair.1 pair.2) ++
    if block.attributes.isEmpty then [] else [block.attributes])

/-- The opening tag without its structural head. -/
def openingTag (block : Block) : Text :=
  ['<'] ++ block.component ++ [' '] ++ block.attributeText ++ ['>']

/-- The closing tag without its structural head. -/
def closingTag (block : Block) : Text :=
  "</".toList ++ block.component ++ ['>']

/-- The lines that stand for the opening line, without the last line break. -/
def openingMarkup (newline : Text) (block : Block) : Text :=
  match block.slots with
  | .markdown => block.linePrefix ++ block.openingTag ++ newline ++ trimEnd block.linePrefix
  | .raw => block.linePrefix ++ block.openingTag

/-- The lines that stand for the closing line, without the last line break. -/
def closingMarkup (newline : Text) (block : Block) : Text :=
  match block.slots with
  | .markdown => trimEnd block.linePrefix ++ newline ++ block.linePrefix ++ block.closingTag
  | .raw => block.linePrefix ++ block.closingTag

end Block

end MdxBuild
