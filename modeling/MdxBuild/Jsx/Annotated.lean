import MdxBuild.Jsx.Entity
import MdxBuild.Jsx.Plain

/-!
# Annotated lowering

Lowering for bundlers: calls are marked as free of effects, character references are decoded, and
the runtime bindings get names that the module does not use. Elements that have no meaning for the
runtime are rejected: tags with a namespace, and keys without a value.
-/

namespace MdxBuild.Jsx

open Script

/-! ## Texts -/

/-- The lines of a text, whatever ends them. -/
def allLines : Text → List Text
  | [] => [[]]
  | char :: rest =>
    if isLineEnd char then [] :: allLines rest
    else
      match allLines rest with
      | line :: others => (char :: line) :: others
      | [] => [[char]]

/-- The visible part of a text between tags, its references decoded. -/
def decodedText (text : Text) : Option Text :=
  joinLines ((visibleLines isSpacing (allLines text)).map decodeReferences)

/-! ## Names -/

/-- The variables that a node names. -/
def ownVariables : Node → List Text
  | .name id => [id]
  | .shorthand id => [id]
  | .function _ _ id _ _ => id.toList
  | .importItems items _ => items.map ImportItem.binding
  | .exportItems items none => items.filterMap fun item => item.source.name?
  | .element (.component root _) _ _ => [root]
  | _ => []

/-- The variables that a module names. -/
def moduleVariables (statements : Module) : List Text :=
  (statements.flatMap Node.subnodes).flatMap ownVariables

/-- The largest number that a name is told apart by. -/
def largestNumber : Nat :=
  4294967295

/-- The number behind a base name: one if there are no digits. Digits that start with a zero, or
that spell a one or more than the largest number, are no number. -/
def variantNumber? (digits : Text) : Option Nat :=
  let number := digits.foldl (fun value char => 10 * value + (char.toNat - 48)) 0
  if digits.isEmpty then some 1
  else if digits.head? = some '0' || number < 2 || largestNumber < number then none
  else some number

/-- A variable that is a base name with underscores in front and possibly a number behind: how many
underscores, and which number. -/
def variant? (base name : Text) : Option (Nat × Nat) :=
  let underscores := name.takeWhile (· = '_')
  let digits := Text.tailBy Char.isDigit name
  let middle := name.length - underscores.length - digits.length
  if underscores.isEmpty || (name.drop underscores.length).take middle != base then none
  else (variantNumber? digits).map fun number => (underscores.length, number)

/-- The later one of two variants. -/
def laterVariant (first second : Nat × Nat) : Nat × Nat :=
  if first.1 < second.1 || (first.1 = second.1 && first.2 < second.2) then second else first

/-- The variant behind another one. -/
def nextVariant (variant : Nat × Nat) : Nat × Nat :=
  if variant.2 < largestNumber then (variant.1, variant.2 + 1) else (variant.1 + 1, 2)

/-- A variable for a base name that none of the given variables is: the variant behind the last one
among them. -/
def freshVariable (taken : List Text) (base : Text) : Text :=
  match taken.filterMap (variant? base) with
  | [] => '_' :: base
  | first :: others =>
    let (underscores, number) := nextVariant (others.foldl laterVariant first)
    List.replicate underscores '_' ++ base ++ Text.ofNat number

/-! ## Lowering -/

/-- The style of annotated lowering for a module that uses the given variables. -/
def annotated (taken : List Text) : Style where
  name := fun name => freshVariable taken name.exported
  marksPure := true
  childText := decodedText
  attributeText := decodeReferences
  isPlainKey := fun key => !key.contains '-' && !key.contains ':'
  spreadChild := fun value => .array [.spread value]
  inlinesObjects := true
  keepsLateKeys := true
  lowersEveryKey := false

/-- An element without a meaning for the runtime. -/
def isRejected : Node → Bool
  | .element (.namespaced _ _) _ _ => true
  | .element _ attributes _ =>
    attributes.any fun given =>
      match given with
      | .flag key => key = keyName
      | _ => false
  | _ => false

/-- The module of a package that a runtime binding is imported from. -/
def sourceOf (package : Text) : RuntimeName → Text
  | .createElement => package
  | _ => runtimeModule package

/-- The statements that import runtime bindings, in the order in which they are needed. -/
def runtimeImports (style : Style) (package : Text) (names : List RuntimeName) : List Node :=
  (names.map (sourceOf package)).eraseDups.map fun source =>
    let items := (names.filter fun name => sourceOf package name = source).map fun name =>
      ImportItem.named (.name name.exported) (style.name name)
    .importItems items (.ofText source)

/-- A statement that only directives and imports come before. -/
def isLeading : Node → Bool
  | .directive _ => true
  | .importEffects _ => true
  | .importItems _ _ => true
  | _ => false

/-- The module lowered in the annotated way, with the imports of the runtime behind its own ones. -/
def lowerAnnotated? (package : Text) (statements : Module) : Option Module :=
  if package.isEmpty || (statements.flatMap Node.subnodes).any isRejected then none
  else
    let style := annotated (moduleVariables statements)
    let lowered := style.lowerAll statements
    let imports := runtimeImports style package (style.runtimeNames statements)
    some (lowered.takeWhile isLeading ++ imports ++ lowered.dropWhile isLeading)

end MdxBuild.Jsx
