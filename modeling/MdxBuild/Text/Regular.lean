import MdxBuild.Text.Basic

/-!
# Regular expressions

The part of the notation of regular expressions that patterns are written in: characters, `.` for
any character but a line feed, `*` behind one of these for any number of them, `^` and `$` for the
two ends of the text, and a backslash before a sign that stands for itself. What else the notation
has (classes, groups, alternatives, counts) is not read here.

Expressions are matched by an engine of the host. It can refuse an expression that takes it too much
room. There is one engine that the library can be tried out with.
-/

namespace MdxBuild.Regular

/-- What a single character is matched by. -/
inductive Atom where
  | literal (char : Char)
  | any
deriving DecidableEq, Repr

/-- The atom matches the character. -/
def Atom.accepts : Atom → Char → Bool
  | .literal expected, char => char == expected
  | .any, char => char != '\n'

/-- A part of an expression: an end of the text, or one atom or any number of it. -/
inductive Part where
  | start
  | finish
  | once (atom : Atom)
  | repeated (atom : Atom)
deriving DecidableEq, Repr

/-- An expression: its parts, one behind the other. -/
abbrev Expression := List Part

/-! ## Notation -/

/-- A sign in the notation of an expression. -/
inductive Token where
  | start
  | finish
  | atom (atom : Atom)
  | again
deriving DecidableEq, Repr

/-- The characters that have a meaning of their own somewhere in the notation. -/
def signs : Text :=
  "\\.+*?()|[]\x7b\x7d^$#&-~".toList

/-- The character stands for itself behind a backslash only. -/
def isSign (char : Char) : Bool :=
  signs.contains char

/-- The signs that match a text itself. -/
def literally (text : Text) : List Token :=
  text.map fun char => .atom (.literal char)

/-- The sign that a character is without a backslash, if its meaning is known here. -/
def token? (char : Char) : Option Token :=
  if char = '^' then some .start
  else if char = '$' then some .finish
  else if char = '.' then some (.atom .any)
  else if char = '*' then some .again
  else if isSign char then none
  else some (.atom (.literal char))

/-- The signs of a written expression. -/
def tokens? : Text → Option (List Token)
  | [] => some []
  | '\\' :: char :: rest =>
    if isSign char then (tokens? rest).map (.atom (.literal char) :: ·) else none
  | char :: rest =>
    match token? char with
    | none => none
    | some token => (tokens? rest).map (token :: ·)

/-- The parts that the signs make: a repetition belongs to the atom before it. -/
def parts? : List Token → Option Expression
  | [] => some []
  | .start :: tokens => (parts? tokens).map (.start :: ·)
  | .finish :: tokens => (parts? tokens).map (.finish :: ·)
  | .again :: _ => none
  | .atom atom :: .again :: tokens => (parts? tokens).map (.repeated atom :: ·)
  | .atom atom :: tokens => (parts? tokens).map (.once atom :: ·)

/-- The expression that a text is the notation of. -/
def read? (text : Text) : Option Expression :=
  (tokens? text).bind parts?

/-! ## Meaning -/

/-- The parts match at the place in a text between `before` and `behind`. -/
inductive MatchesAt : Expression → (before behind : Text) → Prop
  | done {before behind : Text} : MatchesAt [] before behind
  | start {parts : Expression} {behind : Text} (next : MatchesAt parts [] behind) :
    MatchesAt (.start :: parts) [] behind
  | finish {parts : Expression} {before : Text} (next : MatchesAt parts before []) :
    MatchesAt (.finish :: parts) before []
  | once {atom : Atom} {parts : Expression} {before rest : Text} {char : Char}
    (accepts : atom.accepts char = true) (next : MatchesAt parts (before ++ [char]) rest) :
    MatchesAt (.once atom :: parts) before (char :: rest)
  | noMore {atom : Atom} {parts : Expression} {before behind : Text}
    (next : MatchesAt parts before behind) : MatchesAt (.repeated atom :: parts) before behind
  | oneMore {atom : Atom} {parts : Expression} {before rest : Text} {char : Char}
    (accepts : atom.accepts char = true)
    (next : MatchesAt (.repeated atom :: parts) (before ++ [char]) rest) :
    MatchesAt (.repeated atom :: parts) before (char :: rest)

/-- The expression matches at some place in the text. -/
def OccursIn (expression : Expression) (text : Text) : Prop :=
  ∃ before behind, before ++ behind = text ∧ MatchesAt expression before behind

/-! ## Engines -/

/-- An engine for regular expressions, as the host supplies it. -/
structure Engine where
  /-- An expression made ready for matching. -/
  Matcher : Type
  /-- The notation of an expression that matches a text itself. -/
  escape : Text → Text
  /-- The matcher for a written expression, or why there is none. -/
  compile : Text → Except Text Matcher
  /-- The expression matches somewhere in a text. -/
  occurs : Matcher → Text → Bool
  /-- The written expression takes the engine no more room than it allows. -/
  Fits : Text → Prop

/-- The engine does what the notation says, for all expressions that are read here: it compiles
those that fit, and what it compiles it matches by their meaning. -/
structure Engine.Conforms (engine : Engine) : Prop where
  tokens?_escape (text : Text) : tokens? (engine.escape text) = some (literally text)
  compiles {text : Text} {expression : Expression} (read : read? text = some expression)
    (fits : engine.Fits text) : ∃ matcher, engine.compile text = .ok matcher
  occurs_iff {text : Text} {expression : Expression} {matcher : engine.Matcher}
    (read : read? text = some expression) (compiled : engine.compile text = .ok matcher)
    (subject : Text) : engine.occurs matcher subject = true ↔ OccursIn expression subject

end MdxBuild.Regular

namespace MdxBuild.Trial

open Regular

/-! ## A trial engine

It goes from the last part of an expression to the first and finds for all places of the text at
once whether the parts match there, so its work grows with the product of the two lengths. It
refuses what it cannot read and has room for everything else.
-/

/-- A text with a backslash before each character that does not stand for itself. -/
def escape (text : Text) : Text :=
  text.flatMap fun char => if isSign char then ['\\', char] else [char]

/-- The flags of the last place, where the text ends. -/
def finishFlags : List Bool → List Bool
  | [] => []
  | [flag] => [flag]
  | _ :: flags => false :: finishFlags flags

/-- For each place, whether an atom and what is behind it match, given the same for what is behind
the atom. -/
def onceFlags (atom : Atom) : Text → (behind : List Bool) → List Bool
  | char :: rest, _ :: flags =>
    (atom.accepts char && flags.headD false) :: onceFlags atom rest flags
  | _, _ => [false]

/-- For each place, whether any number of atoms and what is behind them match, given the same for
what is behind them. -/
def repeatedFlags (atom : Atom) : Text → (behind : List Bool) → List Bool
  | char :: rest, flag :: flags =>
    let later := repeatedFlags atom rest flags
    (flag || (atom.accepts char && later.headD false)) :: later
  | _, flags => flags

/-- For each place in a text, whether an expression matches there. -/
def flags : Expression → Text → List Bool
  | [], text => text.map (fun _ => true) ++ [true]
  | .start :: parts, text =>
    match flags parts text with
    | [] => []
    | flag :: others => flag :: others.map fun _ => false
  | .finish :: parts, text => finishFlags (flags parts text)
  | .once atom :: parts, text => onceFlags atom text (flags parts text)
  | .repeated atom :: parts, text => repeatedFlags atom text (flags parts text)

/-- An engine that finds at once where in a text an expression matches. -/
def engine : Engine where
  Matcher := Expression
  escape := escape
  compile text :=
    match read? text with
    | none => .error "not an expression".toList
    | some expression => .ok expression
  occurs expression subject := (flags expression subject).any id
  Fits _ := True

end MdxBuild.Trial
