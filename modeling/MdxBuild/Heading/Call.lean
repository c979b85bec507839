import MdxBuild.Heading.Literal
import MdxBuild.Text.Word

/-!
# Heading calls in generated code

The fallback compiler renders a heading by a call such as `_jsx(_components.h2, {…})`. The module
locates these calls and reads their children as far as they are literals or calls in turn. A call
is read from the text inside its props braces and from nothing else.
-/

namespace MdxBuild.Generated

open Text

/-! ## Call headers -/

/-- The rest of a text behind `jsx(` or `jsxs(`, perhaps after an underscore. -/
def afterCallee? (text : Text) : Option Text :=
  let plain := (after? ['_'] text).getD text
  match after? "jsxs(".toList plain with
  | some rest => some rest
  | none => after? "jsx(".toList plain

/-- The rest of a text behind a comma and the opening brace of the props, with blanks around. -/
def afterPropsBrace? (text : Text) : Option Text := do
  let afterComma ← after? [','] (text.dropWhile isBlank)
  after? ['{'] (afterComma.dropWhile isBlank)

/-- The depth that a digit gives a heading. -/
def depthOf? (char : Char) : Option Nat :=
  if '1' ≤ char && char ≤ '6' then some (char.toNat - '0'.toNat) else none

/-- The depth of the heading tag at the start of a text, and the rest. -/
def headingTag? (text : Text) : Option (Nat × Text) :=
  match after? "_components.h".toList text with
  | some (digit :: rest) => (depthOf? digit).map (·, rest)
  | some [] => none
  | none =>
    match after? "\"h".toList text with
    | some (digit :: quote :: rest) =>
      if quote = '"' then (depthOf? digit).map (·, rest) else none
    | _ => none

/-- The depth of the heading call that begins with a text, and the text behind the brace of its
props. -/
def headingHeader? (text : Text) : Option (Nat × Text) := do
  let afterCallee ← afterCallee? text
  let (depth, afterTag) ← headingTag? (afterCallee.dropWhile isBlank)
  let props ← afterPropsBrace? afterTag
  some (depth, props)

/-- A letter of the ASCII range, an underscore or a dollar sign. -/
def isNameStart (char : Char) : Bool :=
  char.isAlpha || char = '_' || char = '$'

/-- A character of a name behind its first one. -/
def isNamePart (char : Char) : Bool :=
  isWord char || char = '$'

/-- The rests of dotted names; `steps` bounds the number of dots. -/
def dottedRest : (steps : Nat) → Text → Text
  | 0, text => text
  | steps + 1, text =>
    match text with
    | '.' :: first :: rest =>
      if isNamePart first then dottedRest steps (rest.dropWhile isNamePart) else text
    | _ => text

/-- A character of a quoted tag behind its first one. -/
def isTagPart (char : Char) : Bool :=
  isWord char || char = '-'

/-- The member of `_components` at the start of a text, and the rest. -/
def memberTag? (text : Text) : Option (Text × Text) :=
  match after? "_components.".toList text with
  | some (first :: rest) =>
    if first.isAlpha then some (first :: rest.takeWhile isWord, rest.dropWhile isWord) else none
  | _ => none

/-- The quoted tag at the start of a text, and the rest. -/
def quotedTag? (text : Text) : Option (Text × Text) :=
  match text with
  | '"' :: first :: rest =>
    match rest.dropWhile isTagPart with
    | '"' :: after =>
      if first.isAlpha then some (first :: rest.takeWhile isTagPart, after) else none
    | _ => none
  | _ => none

/-- The name with dots at the start of a text, and the rest. -/
def namedTag? (text : Text) : Option (Text × Text) :=
  match text with
  | first :: rest =>
    if isNameStart first then
      let after := dottedRest text.length (rest.dropWhile isNamePart)
      some (text.take (text.length - after.length), after)
    else none
  | [] => none

/-- The readings of the tag at the start of a text, each with the rest, in order of preference. -/
def anyTag? (text : Text) : List (Text × Text) :=
  (memberTag? text).toList ++ (quotedTag? text).toList ++ (namedTag? text).toList

/-- The tag of the render call that begins with a text, the text behind the parenthesis, and the
text behind the brace of its props. -/
def renderHeader? (text : Text) : Option (Text × Text × Text) := do
  let afterCallee ← afterCallee? text
  (anyTag? (afterCallee.dropWhile isBlank)).findSome? fun (tag, afterTag) =>
    (afterPropsBrace? afterTag).map fun props => (tag, afterCallee, props)

/-! ## Values -/

/-- What stands for the children of a call. -/
inductive Children where
  | text (value : Text)
  | array (items : List Children)
  | call (tag : Text) (children : Option Children)
  | unknown
deriving Repr, Inhabited

/-- A letter or digit of the ASCII range, an underscore or a dollar sign. -/
def isKeyPart (char : Char) : Bool :=
  char.isAlphanum || char = '_' || char = '$'

/-- The key of the property at the start of a text, and the rest; the empty key where there is
none. -/
def readKey (text : Text) : Text × Text :=
  match text with
  | [] => ([], [])
  | first :: rest =>
    if first = '"' || first = '\'' then
      match literal? first rest with
      | some (inner, after) => (decode inner, after)
      | none => ([], text)
    else if isNameStart first then
      (first :: rest.takeWhile isKeyPart, rest.dropWhile isKeyPart)
    else ([], text)

/-- The text of the value of a property among the properties that a text lists; `bound` limits
their number. -/
def propertyFrom? (key : Text) : (bound : Nat) → Text → Option Text
  | 0, _ => none
  | bound + 1, text =>
    match skipBlanks text with
    | [] => none
    | property =>
      let (name, afterName) := readKey property
      let atColon := skipBlanks afterName
      match if name = key then after? [':'] atColon else none with
      | some value => some (skipBlanks value)
      | none =>
        match toDelimiter atColon with
        | ',' :: others => propertyFrom? key bound others
        | _ => none

/-- The text of the value of a property among the properties inside props braces. -/
def property? (key inside : Text) : Option Text :=
  propertyFrom? key (inside.length + 1) inside

/-- Reads the items that a text lists, with a reader of one item; `bound` limits their number. -/
def readItemsWith (readItem : Text → Children × Text) : (bound : Nat) → Text → List Children
  | 0, _ => []
  | bound + 1, text =>
    match skipBlanks text with
    | [] => []
    | item =>
      let (value, after) := readItem item
      match toDelimiter after with
      | ',' :: others => value :: readItemsWith readItem bound others
      | _ => [value]

/-- Reads the value at the start of a text and returns the text behind it; `depth` bounds the
nesting. -/
def readChildren : (depth : Nat) → Text → Children × Text
  | 0, text => (.unknown, toDelimiter (skipBlanks text))
  | depth + 1, text =>
    let start := skipBlanks text
    match start with
    | [] => (.unknown, [])
    | first :: rest =>
      let asLiteral :=
        if isQuote first then
          match literal? first rest with
          | some (inner, after) =>
            if first = '`' && occursIn ['$', '{'] inner then none
            else some (Children.text (decode inner), after)
          | none => none
        else if first = '[' then
          (bracketed? rest).map fun (inside, after) =>
            (Children.array (readItemsWith (readChildren depth) (inside.length + 1) inside), after)
        else
          match renderHeader? start with
          | none => none
          | some (tag, arguments, props) =>
            match bracketed? props, bracketed? arguments with
            | some (inside, _), some (_, after) =>
              some (Children.call tag
                ((property? "children".toList inside).map fun value =>
                  (readChildren depth value).1), after)
            | _, _ => none
      asLiteral.getD (.unknown, toDelimiter start)

/-- The children that a property's text stands for. -/
def childrenOf (text : Text) : Children :=
  (readChildren (text.length + 1) text).1

namespace Children

/-- The tags of inline formatting, whose text is heading text. -/
def inlineTags : List Text :=
  ["em", "strong", "a", "del", "s", "b", "i"].map String.toList

/-- The text of a plain string. -/
def plain? : Children → Option Text
  | .text value => some value
  | _ => none

/-- The text of a string, or of an array of strings only. -/
def literalText? : Children → Option Text
  | .text value => some value
  | .array items => (items.mapM plain?).map List.flatten
  | _ => none

/-- The text of an inline formatting call around literal text. -/
def inlineText? : Children → Option Text
  | .call tag (some children) => if inlineTags.contains tag then children.literalText? else none
  | _ => none

/-- The whole text, where it is literal: a string, an array of strings, or one inline formatting
call around either. -/
def fullText? (children : Children) : Option Text :=
  match children.literalText? with
  | some value => some value
  | none =>
    match children with
    | .array [only] => only.inlineText?
    | other => other.inlineText?

/-- The strings at the start of a list of items. -/
def leadingText (items : List Children) : Text :=
  ((items.map plain?).takeWhile Option.isSome).flatMap (·.getD [])

mutual

/-- The literal text before the first nested call, where there is any. -/
def prefixText? : Children → Option Text
  | .text value => some value
  | .call _ children => nestedText? children
  | .array items => prefixOfItems? items
  | .unknown => none

/-- The literal text at the start of the children of a call. -/
def nestedText? : Option Children → Option Text
  | none => none
  | some children =>
    match children.fullText? with
    | some value => some value
    | none => prefixText? children

/-- The literal text at the start of an array. -/
def prefixOfItems? : List Children → Option Text
  | [.call _ children] => nestedText? children
  | items =>
    let leading := leadingText items
    if (trim leading).isEmpty then none else some leading

end

end Children

/-! ## Located calls -/

/-- A heading call, located in generated code. -/
structure HeadingCall where
  /-- The number of characters of the code up to and including the props brace. -/
  offset : Nat
  depth : Nat
  children : Option Children
  /-- The id that the call has already; empty if it is no literal. -/
  existingId : Option Text
deriving Repr

namespace HeadingCall

/-- The whole text of the heading, where it is literal. -/
def text? (call : HeadingCall) : Option Text :=
  call.children.bind Children.fullText?

/-- The literal text at the start of the heading. -/
def prefix? (call : HeadingCall) : Option Text :=
  call.children.bind Children.prefixText?

/-- Reads a call of a depth from the text inside its props braces. -/
def ofProps (offset depth : Nat) (inside : Text) : HeadingCall where
  offset := offset
  depth := depth
  children := (property? "children".toList inside).map childrenOf
  existingId := (property? "id".toList inside).map fun value =>
    ((childrenOf value).plain?).getD []

end HeadingCall

/-- The headers of heading calls in a text, in order, each as the depth and the text behind the
brace of the props: `afterWord` tells whether a word character stands before the text, and `skip`
characters still belong to the header found last. -/
def headersFrom : (afterWord : Bool) → (skip : Nat) → Text → List (Nat × Text)
  | _, _, [] => []
  | _, skip + 1, char :: rest => headersFrom (isWord char) skip rest
  | afterWord, 0, char :: rest =>
    match if afterWord then none else headingHeader? (char :: rest) with
    | none => headersFrom (isWord char) 0 rest
    | some (depth, props) =>
      (depth, props) :: headersFrom (isWord char) (rest.length - props.length) rest

/-- The headers of heading calls in generated code. -/
def headers (code : Text) : List (Nat × Text) :=
  headersFrom false 0 code

/-- The heading calls of generated code, in order. Calls whose brackets do not close are left
out. -/
def locate (code : Text) : List HeadingCall :=
  (headers code).filterMap fun (depth, props) =>
    (bracketed? props).map fun (inside, _) =>
      .ofProps (code.length - props.length) depth inside

end MdxBuild.Generated
