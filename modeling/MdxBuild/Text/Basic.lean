/-!
# Text

A text is its list of Unicode scalar values. Offsets that are visible outside the library count
the bytes of the UTF-8 form, so `utf8Length` stands beside the list length.

The module holds the operations that the standard list library lacks: trimming by a predicate,
finding and replacing a part, and the ASCII case map.
-/

namespace MdxBuild

/-- A text as its list of Unicode scalar values. -/
abbrev Text := List Char

namespace Text

/-- The number of bytes of the UTF-8 form. -/
def utf8Length : Text → Nat
  | [] => 0
  | char :: rest => char.utf8Size + utf8Length rest

@[simp]
theorem utf8Length_nil : utf8Length [] = 0 :=
  rfl

@[simp]
theorem utf8Length_cons (char : Char) (rest : Text) :
    utf8Length (char :: rest) = char.utf8Size + utf8Length rest :=
  rfl

@[simp]
theorem utf8Length_append (first second : Text) :
    utf8Length (first ++ second) = utf8Length first + utf8Length second := by
  induction first with
  | nil => simp
  | cons char rest ih => simp [ih, Nat.add_assoc]

/-- The text without its longest tail of characters in the class. -/
def trimEndBy (inClass : Char → Bool) (text : Text) : Text :=
  (text.reverse.dropWhile inClass).reverse

/-- The text without its longest head and its longest tail of characters in the class. -/
def trimBy (inClass : Char → Bool) (text : Text) : Text :=
  trimEndBy inClass (text.dropWhile inClass)

@[simp]
theorem trimEndBy_nil (inClass : Char → Bool) : trimEndBy inClass [] = [] :=
  rfl

/-- Trimming at the end takes characters off the end only. -/
theorem trimEndBy_prefix (inClass : Char → Bool) (text : Text) :
    trimEndBy inClass text <+: text := by
  have dropped := List.dropWhile_suffix (l := text.reverse) inClass
  rw [← List.reverse_suffix]
  simpa [trimEndBy] using dropped

/-- The part that trimming at the end takes off. -/
def tailBy (inClass : Char → Bool) (text : Text) : Text :=
  (text.reverse.takeWhile inClass).reverse

@[simp]
theorem trimEndBy_append_tailBy (inClass : Char → Bool) (text : Text) :
    trimEndBy inClass text ++ tailBy inClass text = text := by
  rw [trimEndBy, tailBy, ← List.reverse_append, List.takeWhile_append_dropWhile,
    List.reverse_reverse]

/-- The rest of the text after `part`, if the text starts with it. -/
def after? (part text : Text) : Option Text :=
  part.isPrefixOf? text

/-- `part` occurs somewhere in the text. -/
def occursIn (part : Text) : Text → Bool
  | [] => part.isEmpty
  | char :: rest => part.isPrefixOf (char :: rest) || occursIn part rest

/-- The text before and after the last occurrence of `part`. -/
def splitLast? (part : Text) : Text → Option (Text × Text)
  | [] => if part.isEmpty then some ([], []) else none
  | char :: rest =>
    match splitLast? part rest with
    | some (before, remainder) => some (char :: before, remainder)
    | none => (after? part (char :: rest)).map ([], ·)

/-- Replaces the occurrences of a non-empty part, found from left to right; `skip` characters of
the occurrence found last are still to be passed over. -/
def replaceFrom (part replacement : Text) : Nat → Text → Text
  | _, [] => []
  | skip + 1, _ :: rest => replaceFrom part replacement skip rest
  | 0, char :: rest =>
    if part.isPrefixOf (char :: rest) then
      replacement ++ replaceFrom part replacement (part.length - 1) rest
    else
      char :: replaceFrom part replacement 0 rest

/-- Replaces every occurrence of `part`. The empty part occurs before each character and at the
end. -/
def replaceAll (part replacement text : Text) : Text :=
  if part.isEmpty then
    text.flatMap (fun char => replacement ++ [char]) ++ replacement
  else
    replaceFrom part replacement 0 text

/-- The text with the letters `A` to `Z` in lower case. -/
def asciiLower (text : Text) : Text :=
  text.map Char.toLower

@[simp]
theorem asciiLower_nil : asciiLower [] = [] :=
  rfl

@[simp]
theorem length_asciiLower (text : Text) : (asciiLower text).length = text.length := by
  simp [asciiLower]

/-- Two texts agree up to the case of the letters `A` to `Z`. -/
def sameIgnoringCase (first second : Text) : Bool :=
  asciiLower first == asciiLower second

/-- Decimal digits of a number, as in `toString`. -/
def ofNat (number : Nat) : Text :=
  (Nat.toDigits 10 number)

end Text

end MdxBuild
