import MdxBuild.Text.Line

/-!
# Fenced code

A fence is opened by a run of at least three backticks or tildes and closed by a run of the same
character that is at least as long and followed by blanks only. Indentation and block quote markers
before the run do not count. `fenceRoles` tells for each line how it relates to the fences before
it; everything else about fences is read off these roles.
-/

namespace MdxBuild

open Text

/-- An open fence: its character and the length of its run. -/
structure Fence where
  marker : Char
  run : Nat
deriving DecidableEq, Repr

/-- How a line relates to fenced code. -/
inductive LineRole where
  | outside
  | opens
  | inside
  | closes
deriving DecidableEq, Repr

/-- The line belongs to a fence, delimiters included. -/
def LineRole.isFenced : LineRole → Bool
  | .outside => false
  | _ => true

/-- Indentation and block quote markers, which may stand before the text of a line. -/
def isLinePrefix (char : Char) : Bool :=
  char = ' ' || char = '\t' || char = '>'

/-- The structural head of a line: its indentation and block quote markers. -/
def linePrefix (line : Text) : Text :=
  line.takeWhile isLinePrefix

/-- The line without its structural head. -/
def lineRemainder (line : Text) : Text :=
  line.dropWhile isLinePrefix

@[simp]
theorem linePrefix_append_lineRemainder (line : Text) :
    linePrefix line ++ lineRemainder line = line :=
  List.takeWhile_append_dropWhile

namespace Fence

/-- The fence that a line could open or close, and the text after its run. -/
def read? : Text → Option (Fence × Text)
  | [] => none
  | marker :: rest =>
    let run := 1 + (rest.takeWhile (· = marker)).length
    if (marker = '`' || marker = '~') && 3 ≤ run then
      some (⟨marker, run⟩, rest.dropWhile (· = marker))
    else none

/-- A run of `candidate` followed by `info` closes the fence. -/
def closedBy (fence candidate : Fence) (info : Text) : Bool :=
  candidate.marker = fence.marker && fence.run ≤ candidate.run && allBlank info

/-- A run of backticks with a further backtick behind it is inline code, not a fence. -/
def opensWith (fence : Fence) (info : Text) : Bool :=
  !(fence.marker = '`' && info.contains '`')

/-- The role of a line, given without its structural head, and the fence open after it. -/
def observe (state : Option Fence) (remainder : Text) : LineRole × Option Fence :=
  match state, read? remainder with
  | some fence, some (candidate, info) =>
    if fence.closedBy candidate info then (.closes, none) else (.inside, some fence)
  | some fence, none => (.inside, some fence)
  | none, some (candidate, info) =>
    if candidate.opensWith info then (.opens, some candidate) else (.outside, none)
  | none, none => (.outside, none)

/-- The roles of lines that follow a place where `state` is the open fence. -/
def rolesFrom (state : Option Fence) : List Text → List LineRole
  | [] => []
  | line :: others =>
    let (role, after) := observe state (lineRemainder line)
    role :: rolesFrom after others

@[simp]
theorem length_rolesFrom (state : Option Fence) (all : List Text) :
    (rolesFrom state all).length = all.length := by
  induction all generalizing state with
  | nil => rfl
  | cons line others ih => simp [rolesFrom, ih]

end Fence

/-- The role of each line of a document. -/
def fenceRoles (all : List Text) : List LineRole :=
  Fence.rolesFrom none all

/-- A fenced line keeps no more than the line feed that ends it. -/
def blankLine (role : LineRole) (line : Text) : Text :=
  if role.isFenced then (if endsLine line then ['\n'] else []) else line

/-- The text with every fenced line emptied, so that the lines keep their numbers. -/
def blankFences (text : Text) : Text :=
  (List.zipWith blankLine (fenceRoles (lines text)) (lines text)).flatten

end MdxBuild
