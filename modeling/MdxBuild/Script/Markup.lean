import MdxBuild.Script.Expression

/-!
# Markup elements

Elements and fragments inside of module code, with their attributes and children. The text between
the tags is kept as it is written.
-/

namespace MdxBuild.Script

/-- A character of a tag or attribute name. -/
def isMarkupNamePart (char : Char) : Bool :=
  isNamePart char || char = '-'

/-- The tag or attribute name at the start of a text. -/
def markupName? (text : Text) : Option (Text × Text) :=
  match token text with
  | [] => none
  | first :: rest =>
    if isNameStart first then
      some (first :: rest.takeWhile isMarkupNamePart, rest.dropWhile isMarkupNamePart)
    else none

/-- A tag name without properties is that of a component, unless it starts with a small letter or
has a dash in it. -/
def simpleTag (name : Text) : Tag :=
  if name = "this".toList then .component name []
  else if name.head?.any (fun char => 'a' ≤ char && char ≤ 'z') || name.contains '-' then
    .intrinsic name
  else .component name []

/-- The properties behind the name of a tag; none of them has a dash in its name. -/
def tagPath? : (fuel : Nat) → Text → Option (List Text × Text)
  | 0, _ => none
  | fuel + 1, text =>
    match token text with
    | '.' :: rest => do
      let (name, behind) ← markupName? rest
      if name.contains '-' then none
      else
        let (names, remainder) ← tagPath? fuel behind
        some (name :: names, remainder)
    | _ => some ([], text)

/-- The tag at the start of a text. -/
def tag? (text : Text) : Option (Tag × Text) := do
  let (name, rest) ← markupName? text
  match token rest with
  | ':' :: behind =>
    let (second, remainder) ← markupName? behind
    some (.namespaced name second, remainder)
  | _ =>
    let (path, remainder) ← tagPath? (rest.length + 1) rest
    some (if path.isEmpty then simpleTag name else .component name path, remainder)

/-- The name of an attribute at the start of a text. -/
def attributeName? (text : Text) : Option (Text × Text) := do
  let (name, rest) ← markupName? text
  match token rest with
  | ':' :: behind =>
    let (second, remainder) ← markupName? behind
    some (name ++ ':' :: second, remainder)
  | _ => some (name, rest)

/-- The text of an attribute between quotes, behind the opening one. -/
def quotedRest? (quote : Char) (text : Text) : Option (Text × Text) :=
  match text.dropWhile (· != quote) with
  | _ :: rest => some (text.takeWhile (· != quote), rest)
  | [] => none

/-- A character that ends the text between two tags. -/
def endsMarkupText (char : Char) : Bool :=
  char = '<' || char = '{'

namespace Level

variable (level : Level) (scope : Scope)

/-- A spread value in braces, behind the opening one. -/
def braceSpread : Reader := fun text => do
  let (value, rest) ← enclosed "\x7d" (level.expression scope) (← after "..." text)
  some (.spread value, rest)

/-- An expression in braces, behind the opening one. -/
def braceValue : Reader := fun text => do
  let (value, rest) ← enclosed "\x7d" (level.expression scope) text
  some (.container value, rest)

/-- The value of an attribute. -/
def attributeValue : Reader := fun text =>
  match token text with
  | '{' :: rest => level.braceValue scope rest
  | '<' :: rest => level.markup scope rest
  | first :: rest =>
    if isQuote first then (quotedRest? first rest).map fun (raw, behind) => (.quoted raw, behind)
    else none
  | [] => none

/-- An attribute. -/
def readAttribute : Reader := fun text =>
  match token text with
  | '{' :: rest => level.braceSpread scope rest
  | _ => do
    let (name, rest) ← attributeName? text
    match token rest with
    | '=' :: behind =>
      let (value, remainder) ← level.attributeValue scope behind
      some (.setting name value, remainder)
    | _ => some (.flag name, rest)

/-- The attributes of a tag up to its end, and whether the tag closes itself. -/
def attributes : (fuel : Nat) → Text → Option (List Node × Bool × Text)
  | 0, _ => none
  | fuel + 1, text =>
    match token text with
    | '>' :: rest => some ([], false, rest)
    | '/' :: rest =>
      match token rest with
      | '>' :: behind => some ([], true, behind)
      | _ => none
    | _ => do
      let (first, rest) ← level.readAttribute scope text
      let (others, closed, remainder) ← attributes fuel rest
      some (first :: others, closed, remainder)

/-- A child in braces, behind the opening one. -/
def braceChild : Reader := fun text =>
  if startsWith "..." text then level.braceSpread scope text
  else
    match after "\x7d" text with
    | some rest => some (.emptyContainer, rest)
    | none => level.braceValue scope text

/-- The text behind the tag that closes an element or, without a name, a fragment; it is read
behind its slash. -/
def afterClosing? (tag : Option Tag) (text : Text) : Option Text := do
  let rest ← match tag with
    | none => some text
    | some opened => do
      let (closed, rest) ← tag? text
      if closed = opened then some rest else none
  match token rest with
  | '>' :: behind => some behind
  | _ => none

/-- The children of an element up to the tag that closes it. -/
def children (tag : Option Tag) : (fuel : Nat) → ListReader
  | 0, _ => none
  | _, [] => none
  | fuel + 1, '<' :: rest =>
    match token rest with
    | '/' :: behind => (afterClosing? tag behind).map fun remainder => ([], remainder)
    | _ => do
      let (first, behind) ← level.markup scope rest
      let (others, remainder) ← children tag fuel behind
      some (first :: others, remainder)
  | fuel + 1, '{' :: rest => do
    let (first, behind) ← level.braceChild scope rest
    let (others, remainder) ← children tag fuel behind
    some (first :: others, remainder)
  | fuel + 1, text => do
    let raw := text.takeWhile fun char => !endsMarkupText char
    if raw.contains '>' || raw.contains '}' then none
    else
      let (others, remainder) ← children tag fuel (text.drop raw.length)
      some (.text raw :: others, remainder)

/-- An element or a fragment, behind the sign that opens it. -/
def readMarkup : Reader := fun text =>
  match token text with
  | '>' :: rest => do
    let (nodes, behind) ← level.children scope none (rest.length + 1) rest
    some (.fragment nodes, behind)
  | _ => do
    let (tag, rest) ← tag? text
    let (attributes, closed, behind) ← level.attributes scope (rest.length + 1) rest
    if closed then some (.element tag attributes [], behind)
    else
      let (nodes, remainder) ← level.children scope (some tag) (behind.length + 1) behind
      some (.element tag attributes nodes, remainder)

end Level

end MdxBuild.Script
