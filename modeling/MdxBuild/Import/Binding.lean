import MdxBuild.Import.Statement

/-!
# Imported bindings

The names that the import clauses of a module bind: the default name, the name of a namespace and,
between braces, each name or the name that follows `as`. The word `type` before a clause or a name
binds nothing. The clause counts from the word `import` up to the quote after `from`; what follows
the quote is of no account.
-/

namespace MdxBuild.Import

open Text

/-- The shortest clause at the start of a text that leaves blanks only, and at least one. -/
def leadingClause? (text : Text) : Option Text :=
  if 2 ≤ text.length && text.getLast?.any isBlank then
    match trimEnd text with
    | [] => some (text.take 1)
    | clause => some clause
  else none

/-- The first result over the rests of a text after a head of blanks, the longest head first; at
least one blank is taken. -/
def afterBlanks? {α : Type} (attempt : Text → Option α) (text : Text) : Option α :=
  match text with
  | [] => none
  | char :: rest =>
    if isBlank char then
      match afterBlanks? attempt rest with
      | some found => some found
      | none => attempt rest
    else none

/-- The clause in the text between `import` and `from`, without the word `type` before it. -/
def clause? (before : Text) : Option Text :=
  afterBlanks? (fun text =>
    match (after? "type".toList text).bind (afterBlanks? leadingClause?) with
    | some clause => some clause
    | none => leadingClause? text) before

/-- The clause of the import statement at the start of a text, and the length up to its quote. -/
def clauseStatement? (text : Text) : Option (Text × Nat) := do
  let (between, afterQuote) ← head? text
  let clause ← clause? (← beforeFrom? between)
  some (clause, text.length - afterQuote.length)

/-- A clause cut at its braces: the text around them, and the text between the first opening and
the last closing one. -/
def splitBraces (clause : Text) : Text × Option Text :=
  let before := clause.takeWhile (· != '{')
  match clause.dropWhile (· != '{') with
  | [] => (clause, none)
  | _ :: rest =>
    match splitLast? ['}'] rest with
    | none => (clause, none)
    | some (named, after) => (before ++ after, some named)

/-- The last word of a text. -/
def lastWord (text : Text) : Text :=
  tailBy (!isBlank ·) text

/-- The name that a part of the clause outside the braces binds. -/
def outerBinding (part : Text) : Option Text :=
  match trim part with
  | [] => none
  | words => some (lastWord words)

/-- The name that a part between the braces binds. -/
def namedBinding (part : Text) : Option Text :=
  let shown := match splitLast? " as ".toList (trim part) with
    | some (_, shown) => shown
    | none => trim part
  let name := match after? "type ".toList (trim shown) with
    | some name => trim name
    | none => trim shown
  if name.isEmpty then none else some name

/-- The names that a clause binds. -/
def clauseBindings (clause : Text) : List Text :=
  let (outer, named) := splitBraces clause
  (outer.splitOn ',').filterMap outerBinding ++
    (named.elim [] (·.splitOn ',')).filterMap namedBinding

/-- The names that the import statements of a module bind. -/
def bindings (code : Text) : List Text :=
  (atLineStarts clauseStatement? code).flatMap clauseBindings

end MdxBuild.Import
