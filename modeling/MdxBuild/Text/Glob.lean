import MdxBuild.Text.Basic

/-!
# Globs

A glob is a text in which `*` stands for any characters but line feeds and every other character
for itself. It has to match a text as a whole.

Whether a glob matches is found for all rests of a text at once, from the end of the glob to its
start, so the work grows with the product of the two lengths however many stars there are. The
equations for `accepts` say what it answers without that detour.
-/

namespace MdxBuild.Glob

/-- For each rest of a text, whether a star and what is behind it match, given the same for what is
behind the star. -/
def starFlags : Text → (behind : List Bool) → List Bool
  | char :: rest, flag :: flags =>
    let later := starFlags rest flags
    (flag || (char != '\n' && later.headD false)) :: later
  | _, flags => flags

/-- For each rest of a text, whether a character and what is behind it match, given the same for
what is behind the character. -/
def charFlags (expected : Char) : Text → (behind : List Bool) → List Bool
  | char :: rest, _ :: flags =>
    (char == expected && flags.headD false) :: charFlags expected rest flags
  | _, _ => [false]

/-- For each rest of a text, the longest first, whether a glob matches all of it. -/
def flags : (glob : Text) → Text → List Bool
  | [], text => text.map (fun _ => false) ++ [true]
  | char :: glob, text =>
    if char = '*' then starFlags text (flags glob text) else charFlags char text (flags glob text)

/-- The glob matches the whole text. -/
def accepts (glob text : Text) : Bool :=
  (flags glob text).headD false

private theorem length_starFlags (text : Text) :
    ∀ behind : List Bool, (starFlags text behind).length = behind.length := by
  induction text with
  | nil => intro behind; rw [starFlags]; simp
  | cons char rest ih =>
    intro behind
    cases behind with
    | nil => rfl
    | cons flag others => simp [starFlags, ih]

private theorem length_charFlags (expected : Char) (text : Text) :
    ∀ behind : List Bool, behind.length = text.length + 1 →
      (charFlags expected text behind).length = text.length + 1 := by
  induction text with
  | nil => intro behind _; simp [charFlags]
  | cons char rest ih =>
    intro behind size
    cases behind with
    | nil => simp at size
    | cons flag others => simp [charFlags, ih others (by simpa using size)]

/-- There is a flag for each rest of the text, the empty one included. -/
theorem length_flags (glob text : Text) : (flags glob text).length = text.length + 1 := by
  induction glob with
  | nil => simp [flags]
  | cons char glob ih =>
    by_cases star : char = '*'
    · simp [flags, star, length_starFlags, ih]
    · simp [flags, star, length_charFlags char text _ ih]

/-- The flags of a text are its own one and those of its rest. -/
theorem flags_cons (glob : Text) (char : Char) (rest : Text) :
    flags glob (char :: rest) = accepts glob (char :: rest) :: flags glob rest := by
  induction glob with
  | nil => simp [accepts, flags]
  | cons first glob ih =>
    by_cases star : first = '*'
    · simp only [accepts, flags, star, if_true]
      rw [ih]
      simp [starFlags]
    · simp only [accepts, flags, star, if_false]
      rw [ih]
      simp [charFlags]

@[simp]
theorem accepts_nil (text : Text) : accepts [] text = text.isEmpty := by
  cases text <;> simp [accepts, flags]

theorem accepts_star_nil (glob : Text) : accepts ('*' :: glob) [] = accepts glob [] := by
  simp [accepts, flags, starFlags]

/-- A star stands for nothing, or for one character that is no line feed and for more. -/
theorem accepts_star_cons (glob : Text) (char : Char) (rest : Text) :
    accepts ('*' :: glob) (char :: rest) =
      (accepts glob (char :: rest) || (char != '\n' && accepts ('*' :: glob) rest)) := by
  simp only [accepts, flags, if_true]
  rw [flags_cons]
  simp [starFlags]

theorem accepts_char_nil {char : Char} (plain : char ≠ '*') (glob : Text) :
    accepts (char :: glob) [] = false := by
  simp [accepts, flags, plain, charFlags]

/-- A character other than the star stands for itself. -/
theorem accepts_char_cons {char : Char} (plain : char ≠ '*') (glob : Text) (first : Char)
    (rest : Text) :
    accepts (char :: glob) (first :: rest) = (first == char && accepts glob rest) := by
  simp only [accepts, flags, plain, if_false]
  rw [flags_cons]
  simp [charFlags]

end MdxBuild.Glob
