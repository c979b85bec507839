import MdxBuild.Script.Module

/-!
# Printed modules

The code of a module, laid out in one way: a statement to a line, a tab for each level of
indentation, strings in double quotes, and parentheses only where the tree needs them, or around
functions that had them. Lists of more than two items and objects of more than one member take a
line for each.
-/

namespace MdxBuild.Script

open Text

/-! ## Strings -/

/-- A digit starts the rest of a string. -/
def startsWithDigit (rest : Content) : Bool :=
  (rest.head?.bind StringPart.char?).any Char.isDigit

/-- A character inside of a string, with what is behind it. -/
def escapeChar (char : Char) (rest : Content) : Text :=
  match char with
  | '\x00' => if startsWithDigit rest then "\\x00".toList else "\\0".toList
  | '\x07' => "\\x07".toList
  | '\x08' => "\\b".toList
  | '\x0b' => "\\v".toList
  | '\x0c' => "\\f".toList
  | '\n' => "\\n".toList
  | '\r' => "\\r".toList
  | '\x1b' => "\\x1B".toList
  | '\\' => "\\\\".toList
  | '"' => "\\\"".toList
  | '\u00a0' => "\\xA0".toList
  | '\u2028' => "\\u2028".toList
  | '\u2029' => "\\u2029".toList
  | _ => [char]

/-- The text behind `</` goes on as the closing tag of a script element. -/
def closesScript (rest : Text) : Bool :=
  sameIgnoringCase (rest.take 6) "script".toList

/-- The inside of a string. A page may hold the module in a script element, so nothing in it looks
like the closing tag of one. -/
def escapeAll : Content → Text
  | [] => []
  | .char '<' :: .char '/' :: rest =>
    (if closesScript ((rest.take 6).filterMap StringPart.char?) then "<\\/".toList
    else "</".toList) ++ escapeAll rest
  | .char char :: rest => escapeChar char rest ++ escapeAll rest
  | .half code :: rest => "\\u".toList ++ Nat.toDigits 16 code ++ escapeAll rest

/-- A string in double quotes. -/
def quote (value : Content) : Text :=
  ['"'] ++ escapeAll value ++ ['"']

/-- The text of a template as it was written, without closing tags of script elements. -/
def templateRaw : Text → Text
  | [] => []
  | '<' :: '/' :: rest =>
    (if closesScript rest then "<\\/".toList else "</".toList) ++ templateRaw rest
  | char :: rest => char :: templateRaw rest

/-- The raw text has a double quote in it that is not escaped. -/
def hasBareQuote : Text → Bool
  | [] => false
  | '\\' :: _ :: rest => hasBareQuote rest
  | char :: rest => char = '"' || hasBareQuote rest

/-! ## Places -/

/-- What begins where an expression begins. -/
inductive Start where
  | statement
  | arrowBody
  | defaultExport
  | nothing
deriving DecidableEq, Repr

/-- Where a part of a module is printed. -/
structure Place where
  /-- The level of indentation. -/
  depth : Nat
  /-- How tightly the code around an expression binds. -/
  strength : Nat := 0
  start : Start := .nothing
  /-- The place is in the callee of a creation, where calls have parentheses around them. -/
  inCallee : Bool := false

namespace Strength

/-- The strength of a comma between expressions. -/
def comma : Nat := 1

/-- The strength of the branches of a choice. -/
def branch : Nat := 3

/-- The strength of an assignment and of an arrow function. -/
def assignment : Nat := 4

/-- The strength of a choice. -/
def choice : Nat := 5

/-- The strength of the operand of a unary operator. -/
def operand : Nat := 17

/-- The strength of an operator in front of its operand. -/
def unary : Nat := 18

/-- The strength of an operator behind its operand, and of what members and calls belong to. -/
def postfixed : Nat := 19

/-- The strength of a creation's callee. -/
def creation : Nat := 20

/-- The strength of a call. -/
def call : Nat := 21

end Strength

namespace Place

/-- An inner place where the code around binds with a strength. -/
def inner (place : Place) (strength : Nat) : Place :=
  { depth := place.depth, strength }

/-- An inner place of a callee of a creation, if the place is one. -/
def within (place : Place) (strength : Nat) : Place :=
  { depth := place.depth, strength, inCallee := place.inCallee }

/-- The place of a part that something starts with. -/
def leading (place : Place) (strength : Nat) (start : Start) : Place :=
  { depth := place.depth, strength, start }

/-- The place of an expression's first part. -/
def first (place : Place) (strength : Nat) : Place :=
  { place with strength }

/-- The place with one more level of indentation. -/
def indented (place : Place) : Place :=
  { depth := place.depth + 1, inCallee := place.inCallee }

end Place

/-! ## Layout -/

/-- The indentation of a level. -/
def indentation (depth : Nat) : Text :=
  List.replicate depth '\t'

/-- Parentheses, where they are needed. -/
def parenthesized (needed : Bool) (text : Text) : Text :=
  if needed then ['('] ++ text ++ [')'] else text

/-- Texts with commas between them. -/
def commaSeparated (texts : List Text) : Text :=
  ", ".toList.intercalate texts

/-- Items on lines of their own between two brackets. -/
def onLines (depth : Nat) (opening closing : Text) (texts : List Text) : Text :=
  opening ++ ['\n'] ++
    ",\n".toList.intercalate (texts.map fun text => indentation (depth + 1) ++ text) ++
    ['\n'] ++ indentation depth ++ closing

/-- The last item of a list is left out. -/
def endsWithHole (items : List Node) : Bool :=
  match items.getLast? with
  | some .hole => true
  | _ => false

/-- The items of a list with a comma behind the last one if it is left out. -/
def listItems (items : List Node) (texts : List Text) : List Text :=
  if endsWithHole items then texts.dropLast ++ [[',']] else texts

/-- Lines of code between braces. -/
def inBraces (depth : Nat) (lines : List Text) : Text :=
  if lines.isEmpty then "\x7b\x7d".toList
  else "\x7b\n".toList ++ lines.flatten ++ indentation depth ++ "\x7d".toList

/-- Statements between braces. -/
def braces (depth : Nat) (statements : List Text) : Text :=
  inBraces depth (statements.map fun text => indentation (depth + 1) ++ text)

/-- A number as it is written, unless it is too large to be one. -/
def printNumber (digits : Text) : Text :=
  if isInfinite digits then "Infinity".toList else digits

/-- The text of a key. A number too large to be one is a name, which has to be computed. -/
def Key.print : Key → Text
  | .name text => text
  | .string value => quote value
  | .number digits =>
    if isInfinite digits then ['['] ++ printNumber digits ++ [']'] else digits

/-- The key of an object member need not be written, because it is the variable that the member
has the value of. -/
def isShorthand (key : Key) (value : Node) : Bool :=
  match key, value.ungrouped with
  | .name text, .name id => text = id && text != "__proto__".toList
  | _, _ => false

/-- A function or an arrow function: what keeps its parentheses. -/
def isFunction : Node → Bool
  | .function .. => true
  | .arrow .. => true
  | _ => false

/-- A number behind which a dot would belong to it. -/
def isWholeNumber : Node → Bool
  | .number digits => isWhole digits
  | _ => false

/-- A value is changed by an operator behind it. -/
def isUpdatedBehind (operator : Text) : Node → Bool
  | .update sign false _ => operator.isPrefixOf sign
  | _ => false

/-- An operator in front of its operand. A sign is kept apart from a sign like it at the start of
the operand, and from an operand that is changed by signs like it. -/
def prefixed (operator : Text) (operand : Node) (printed : Text) : Text :=
  let isWord := operator.all Char.isAlpha
  let isSign := operator = ['+'] || operator = ['-']
  let clashes := printed.head? == operator.head? || isUpdatedBehind operator operand.ungrouped
  operator ++ (if isWord || (isSign && clashes) then [' '] else []) ++ printed

/-- An operation with an operator in front of its operand, other than waiting. -/
def isOperator : Node → Bool
  | .unary operator _ => operator != "await".toList
  | _ => false

/-- A statement that a following `else` would be taken for a part of. -/
def isOpenBranch : Node → Bool
  | .branch _ _ => true
  | .branchElse _ _ negative => isOpenBranch negative
  | _ => false

/-- An item of an import statement in braces. -/
def namedItem (exported : Key) (binding : Text) : Text :=
  if exported = .name binding then binding else exported.print ++ " as ".toList ++ binding

/-- What an import statement binds. -/
def importClause (items : List ImportItem) : Text :=
  let single := items.filterMap fun item =>
    match item with
    | .default binding => some binding
    | .all binding => some ("* as ".toList ++ binding)
    | .named _ _ => none
  let named := items.filterMap fun item =>
    match item with
    | .named exported binding => some (namedItem exported binding)
    | _ => none
  let braces := "\x7b ".toList ++ commaSeparated named ++ " \x7d".toList
  if items.isEmpty then "\x7b\x7d".toList
  else commaSeparated (if named.isEmpty then single else single ++ [braces])

/-- An item of an export statement. -/
def exportItem (item : ExportItem) : Text :=
  if item.source = item.exported then item.source.print
  else item.source.print ++ " as ".toList ++ item.exported.print

/-- The listed items of an export statement. -/
def exportClause (items : List ExportItem) : Text :=
  if items.isEmpty then "\x7b\x7d".toList
  else "\x7b ".toList ++ commaSeparated (items.map exportItem) ++ " \x7d".toList

/-- The tag of an element as it is written. -/
def Tag.print : Tag → Text
  | .intrinsic name => name
  | .component root path => ['.'].intercalate (root :: path)
  | .namespaced space name => space ++ [':'] ++ name

/-- The string that is the first statement of a body; as it is no directive, it keeps its
parentheses. -/
def leadingString? : List Node → Option Content
  | .expression value :: _ =>
    match value.ungrouped with
    | .string content => some content
    | _ => none
  | _ => none

/-- The statements of a body at a level of indentation, given how each is printed by itself. A
string in parentheses that comes first is not indented. -/
def bodyTexts (depth : Nat) (body : List Node) (texts : List Text) : List Text :=
  let indent := fun (text : Text) => indentation depth ++ text
  match leadingString? body with
  | some content => (['('] ++ quote content ++ ");\n".toList) :: (texts.drop 1).map indent
  | none => texts.map indent

/-- The body of a function at a level of indentation, given how each statement is printed by
itself. -/
def functionBody (depth : Nat) (body : List Node) (texts : List Text) : Text :=
  inBraces depth (bodyTexts (depth + 1) body texts)

/-- How tightly an operation binds its left and its right operand. Operators of logic, and the
fallback operator, need no parentheses around an operation like them on either side. -/
def operandStrengths (operator : Text) (left right : Node) : Nat × Nat :=
  let strength := (strength? operator).getD 0
  let apart := fun (isApart : Node → Bool) (operand : Node) (usual : Nat) =>
    if isApart operand.ungrouped then Strength.call else usual
  match String.ofList operator with
  | "**" => (apart isOperator left strength, strength - 1)
  | "??" => (apart isLogical left (strength - 1), apart isLogical right (strength - 1))
  | "||" | "&&" => (strength - 1, strength - 1)
  | _ => (strength - 1, strength)

/-- The target of an assignment is that of the members of an object. -/
def storesMembers : Node → Bool
  | .objectTarget _ => true
  | _ => false

/-- A list pattern that binds nothing but the rest of a list. -/
def isRestAlone : List Node → Bool
  | [.spread _] => true
  | _ => false

/-! ## Nodes -/

mutual

/-- A node at a place. Statements come with the line break behind them. -/
def Node.print (place : Place) : Node → Text
  | .name id => id
  | .word spelling => spelling
  | .number digits => printNumber digits
  | .string value => quote value
  | .template head parts =>
    ['`'] ++ templateRaw head ++ (Node.printAll (place.inner 0) parts).flatten ++ ['`']
  | .templatePart value tail =>
    "$\x7b".toList ++ value.print (place.inner 0) ++ "\x7d".toList ++ templateRaw tail
  | .array items =>
    if items.length ≤ 2 then
      ['['] ++
        commaSeparated (listItems items (Node.printAll (place.inner Strength.comma) items)) ++ [']']
    else
      let texts := Node.printAll (place.indented.inner Strength.comma) items
      onLines place.depth ['['] [']'] (listItems items texts)
  | .hole => []
  | .object members =>
    parenthesized (place.start = .statement || place.start = .arrowBody)
      (if members.isEmpty then "\x7b\x7d".toList
      else if members.length = 1 then
        "\x7b ".toList ++ (Node.printAll (place.inner 0) members).flatten ++ " \x7d".toList
      else
        let texts := Node.printAll (place.indented.inner 0) members
        onLines place.depth "\x7b".toList "\x7d".toList texts)
  | .property key value =>
    if isShorthand key value then value.print (place.inner Strength.comma)
    else key.print ++ ": ".toList ++ value.print (place.inner Strength.comma)
  | .computedProperty key value =>
    ['['] ++ key.print (place.inner Strength.comma) ++ "]: ".toList ++
      value.print (place.inner Strength.comma)
  | .shorthand id => id
  | .spread value => "...".toList ++ value.print (place.inner Strength.comma)
  | .beforeComma item => item.print place
  | .group value =>
    if isFunction value then ['('] ++ value.print (place.within 0) ++ [')'] else value.print place
  | .function isAsync isGenerator id parameters body =>
    let head := (if isAsync then "async function".toList else "function".toList) ++
      (if isGenerator then "* ".toList else if id.isSome then [' '] else []) ++ id.getD []
    let code := head ++ ['('] ++ commaSeparated (Node.printAll (place.inner 0) parameters) ++
      ") ".toList ++
      functionBody place.depth body (Node.printAll (place.indented.inner 0) body)
    parenthesized (place.start = .statement || place.start = .defaultExport) code
  | .arrow isAsync parameters body =>
    let head := (if isAsync then "async ".toList else []) ++ ['('] ++
      commaSeparated (Node.printAll (place.inner 0) parameters) ++ ") => ".toList
    let code := match body with
      | .block statements =>
        functionBody place.depth statements (Node.printAll place.indented statements)
      | value =>
        value.print { place with strength := Strength.comma, start := .arrowBody }
    parenthesized (Strength.assignment ≤ place.strength) (head ++ code)
  | .call isPure callee args =>
    let wrapped := Strength.creation ≤ place.strength || place.inCallee ||
      (isPure && Strength.postfixed ≤ place.strength)
    let start := if wrapped then .nothing else place.start
    let mark := if isPure then "/* @__PURE__ */ ".toList else []
    parenthesized wrapped
      (mark ++ callee.print (place.leading Strength.postfixed start) ++
        ['('] ++ commaSeparated (Node.printAll (place.inner Strength.comma) args) ++ [')'])
  | .create callee args =>
    parenthesized (Strength.call ≤ place.strength)
      ("new ".toList ++
        callee.print { depth := place.depth, strength := Strength.creation, inCallee := true } ++
        ['('] ++ commaSeparated (Node.printAll (place.inner Strength.comma) args) ++ [')'])
  | .member owner key =>
    owner.print (place.first Strength.postfixed) ++
      (if isWholeNumber owner.ungrouped then " .".toList else ['.']) ++ key
  | .index owner key =>
    owner.print (place.first Strength.postfixed) ++ ['['] ++ key.print (place.inner 0) ++ [']']
  | .unary operator operand =>
    parenthesized (Strength.unary ≤ place.strength)
      (prefixed operator operand (operand.print (place.within Strength.operand)))
  | .update operator before operand =>
    if before then
      parenthesized (Strength.unary ≤ place.strength)
        (prefixed operator operand (operand.print (place.within Strength.unary)))
    else
      parenthesized (Strength.postfixed ≤ place.strength)
        (operand.print (place.first Strength.postfixed) ++ operator)
  | .binary operator left right =>
    let strength := (strength? operator).getD 0
    let strengths := operandStrengths operator left right
    let wrapped := strength ≤ place.strength
    let start := if wrapped then .nothing else place.start
    parenthesized wrapped
      (left.print { place with strength := strengths.1, start } ++
        ([' '] ++ operator ++ [' '] ++ right.print (place.within strengths.2)))
  | .conditional test positive negative =>
    let wrapped := Strength.choice ≤ place.strength
    let start := if wrapped then .nothing else place.start
    parenthesized wrapped
      (test.print (place.leading Strength.choice start) ++ " ? ".toList ++
        positive.print (place.inner Strength.branch) ++ " : ".toList ++
        negative.print (place.inner Strength.branch))
  | .assign operator target value =>
    let atStart := place.start = .statement || place.start = .arrowBody
    let wrapped := Strength.assignment ≤ place.strength || (atStart && storesMembers target)
    let start := if wrapped then .nothing else place.start
    parenthesized wrapped
      (target.print (place.leading Strength.comma start) ++
        [' '] ++ operator ++ [' '] ++ value.print (place.within Strength.comma))
  | .sequence items =>
    let wrapped := Strength.comma ≤ place.strength
    let start := if wrapped then .nothing else place.start
    parenthesized wrapped
      (commaSeparated (Node.printEach (place.leading 0 start) (place.inner 0) items))
  | .objectPattern members =>
    if members.isEmpty then "\x7b\x7d".toList
    else
      "\x7b ".toList ++ commaSeparated (Node.printAll (place.inner 0) members) ++ " \x7d".toList
  | .arrayPattern items =>
    (if isRestAlone items then "[ ".toList else ['[']) ++
      commaSeparated (listItems items (Node.printAll (place.inner 0) items)) ++ [']']
  | .initialized target value =>
    target.print (place.inner 0) ++ " = ".toList ++ value.print (place.within Strength.comma)
  | .objectTarget members =>
    "\x7b".toList ++ commaSeparated (Node.printAll (place.inner 0) members) ++ "\x7d".toList
  | .storedProperty key target => key.print ++ ": ".toList ++ target.print (place.inner 0)
  | .arrayTarget items =>
    ['['] ++ commaSeparated (listItems items (Node.printAll (place.inner 0) items)) ++ [']']
  | .directive raw =>
    let mark := if hasBareQuote raw then ['\''] else ['"']
    mark ++ raw ++ mark ++ ";\n".toList
  | .expression value => value.print (place.leading 0 .statement) ++ ";\n".toList
  | .variableDeclaration kind declarators =>
    kind ++ [' '] ++ commaSeparated (Node.printAll (place.within 0) declarators) ++ ";\n".toList
  | .functionDeclaration declared => declared.print (place.inner 0) ++ ['\n']
  | .block body => braces place.depth (Node.printAll place.indented body) ++ ['\n']
  | .branch test positive =>
    "if (".toList ++ test.print (place.inner 0) ++ [')'] ++
      match positive with
      | .empty => ";\n".toList
      | positive =>
        if isOpenBranch positive then
          [' '] ++ braces place.depth [positive.print place.indented] ++ ['\n']
        else [' '] ++ positive.print (place.within 0)
  | .branchElse test positive negative =>
    "if (".toList ++ test.print (place.inner 0) ++ [')'] ++
      (match positive with
        | .empty => ";\n".toList ++ indentation place.depth
        | .block body =>
          [' '] ++ braces place.depth (Node.printAll place.indented body) ++ [' ']
        | positive =>
          if isOpenBranch positive then
            [' '] ++ braces place.depth [positive.print place.indented] ++ [' ']
          else [' '] ++ positive.print (place.within 0) ++ indentation place.depth) ++
      "else".toList ++
      match negative with
      | .empty => ";\n".toList
      | negative => [' '] ++ negative.print (place.within 0)
  | .returnNothing => "return;\n".toList
  | .returnValue value => "return ".toList ++ value.print (place.inner 0) ++ ";\n".toList
  | .empty => ";\n".toList
  | .importEffects source => "import ".toList ++ quote source ++ ";\n".toList
  | .importItems items source =>
    "import ".toList ++ importClause items ++ " from ".toList ++ quote source ++ ";\n".toList
  | .exportItems items source =>
    "export ".toList ++ exportClause items ++
      (match source with
        | some source => " from ".toList ++ quote source
        | none => []) ++ ";\n".toList
  | .exportAll binding source =>
    "export *".toList ++
      (match binding with
        | some key => " as ".toList ++ key.print
        | none => []) ++ " from ".toList ++ quote source ++ ";\n".toList
  | .exportDeclaration declaration => "export ".toList ++ declaration.print (place.inner 0)
  | .exportDefault value =>
    "export default ".toList ++
      match value with
      | .function isAsync isGenerator id parameters body =>
        Node.print (place.inner 0) (.function isAsync isGenerator id parameters body) ++ ['\n']
      | value =>
        value.print (place.leading Strength.comma .defaultExport) ++
          ";\n".toList
  | .element tag attributes children =>
    ['<'] ++ tag.print ++
      (Node.printAll (place.inner 0) attributes).flatMap (fun text => ' ' :: text) ++ ['>'] ++
      (Node.printAll (place.inner 0) children).flatten ++ "</".toList ++ tag.print ++ ['>']
  | .fragment children =>
    "<>".toList ++ (Node.printAll (place.inner 0) children).flatten ++ "</>".toList
  | .setting key value => key ++ ['='] ++ value.print (place.inner 0)
  | .flag key => key
  | .quoted raw =>
    let mark := if raw.contains '"' then ['\''] else ['"']
    mark ++ raw ++ mark
  | .text raw => raw
  | .container value => "\x7b".toList ++ value.print (place.inner 0) ++ "\x7d".toList
  | .emptyContainer => "\x7b\x7d".toList

/-- Nodes, each at the same place. -/
def Node.printAll (place : Place) : List Node → List Text
  | [] => []
  | node :: others => node.print place :: Node.printAll place others

/-- Nodes, the first one at a place of its own. -/
def Node.printEach (first others : Place) : List Node → List Text
  | [] => []
  | node :: nodes => node.print first :: Node.printEach others others nodes

end

/-- The code of a module. -/
def Module.print (statements : Module) : Text :=
  (bodyTexts 0 statements (Node.printAll { depth := 0 } statements)).flatten

end MdxBuild.Script
