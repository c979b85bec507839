import MdxBuild.Dictionary
import MdxBuild.Heading.Call
import MdxBuild.Heading.Record

/-!
# Assigning headings to calls

Heading calls are matched with the extracted headings in three passes, and no heading is used
twice. Calls that have an id claim the heading it belongs to. Calls whose whole text is known
take, in order, the first free heading of their depth with that text. The remaining calls take the
first free heading of their depth that begins with their literal start, or, where they have none,
the only free heading of their depth.
-/

namespace MdxBuild.Generated

open Text

/-- A call and the index of the heading that it was assigned. -/
structure Slot where
  call : HeadingCall
  heading : Option Nat
deriving Repr

namespace Assignment

/-- The indices of the headings that are not claimed and satisfy a test. -/
def free (headings : List HeadingRecord) (claimed : List Nat) (accepts : HeadingRecord → Bool) :
    List Nat :=
  (headings.zipIdx.filter fun entry => !claimed.contains entry.2 && accepts entry.1).map Prod.snd

/-- The headings that calls with an id claim. -/
def claimedByIds (headings : List HeadingRecord) (calls : List HeadingCall) : List Nat :=
  calls.foldl (fun claimed call =>
    match call.existingId with
    | none => claimed
    | some id =>
      match free headings claimed fun heading =>
          heading.depth == call.depth && heading.slug == id with
      | [] => claimed
      | first :: _ => first :: claimed) []

/-- A pass over the calls with a state: each call without an id and without a heading may choose
one. -/
def pass {State : Type} (choose : HeadingCall → State → Option Nat × State) :
    State → List Slot → List Slot × State
  | state, [] => ([], state)
  | state, slot :: others =>
    if slot.call.existingId.isNone && slot.heading.isNone then
      let (heading, next) := choose slot.call state
      let (slots, final) := pass choose next others
      ({ slot with heading := heading } :: slots, final)
    else
      let (slots, final) := pass choose state others
      (slot :: slots, final)

/-- What headings with one depth and one text wait under. -/
def matchKey (depth : Nat) (text : Text) : Text :=
  Text.ofNat depth ++ ':' :: trim text

/-- The headings that wait for calls with their text, by match key. -/
abbrev Queues : Type :=
  Dictionary (List Nat)

/-- The queues with one more heading at the end of its queue. -/
def enqueue (queues : Queues) (heading : HeadingRecord) (index : Nat) : Queues :=
  let key := matchKey heading.depth heading.text
  queues.insert key ((queues.find? key).getD [] ++ [index])

/-- The queues of all headings. -/
def queues (headings : List HeadingRecord) : Queues :=
  headings.zipIdx.foldl (fun queues entry => enqueue queues entry.1 entry.2) .empty

/-- The first heading of a queue that is not claimed, and the queue behind it. -/
def dequeue (claimed : List Nat) : List Nat → Option Nat × List Nat
  | [] => (none, [])
  | index :: others =>
    if claimed.contains index then dequeue claimed others else (some index, others)

/-- The state of the first pass. -/
structure Waiting where
  claimed : List Nat
  queues : Queues

/-- The choice of a call whose whole text is known. -/
def chooseByText (call : HeadingCall) (waiting : Waiting) : Option Nat × Waiting :=
  match call.text? with
  | none => (none, waiting)
  | some text =>
    let key := matchKey call.depth text
    match waiting.queues.find? key with
    | none => (none, waiting)
    | some queue =>
      let (heading, left) := dequeue waiting.claimed queue
      (heading, ⟨heading.toList ++ waiting.claimed, waiting.queues.insert key left⟩)

/-- The choice of a call whose whole text is not known. Blanks at the end of the literal start are
part of it. -/
def byStart (headings : List HeadingRecord) (call : HeadingCall) (claimed : List Nat) :
    Option Nat :=
  if call.text?.isSome then none
  else
    let ofDepth := free headings claimed fun heading => heading.depth == call.depth
    match call.prefix?.filter (!allBlank ·) with
    | some start =>
      (free headings claimed fun heading =>
        heading.depth == call.depth &&
          (trimStart start).isPrefixOf (trimStart heading.text)).head?
    | none =>
      match ofDepth with
      | [only] => some only
      | _ => none

/-- A choice of a heading, which is claimed then. -/
def claiming (choose : HeadingCall → List Nat → Option Nat) (call : HeadingCall)
    (claimed : List Nat) : Option Nat × List Nat :=
  (choose call claimed, (choose call claimed).toList ++ claimed)

/-- The calls with the headings assigned to them. -/
def assign (headings : List HeadingRecord) (calls : List HeadingCall) : List Slot :=
  let start : Waiting := ⟨claimedByIds headings calls, queues headings⟩
  let (slots, waiting) := pass chooseByText start (calls.map (⟨·, none⟩))
  (pass (claiming (byStart headings)) waiting.claimed slots).1

end Assignment

/-- The id property with a slug. -/
def idProperty (slug : Text) : Text :=
  " id: ".toList ++ Json.quote slug ++ [',']

/-- What is inserted into the code: a position and a text for each call that was assigned a
heading. -/
def insertions (headings : List HeadingRecord) (slots : List Slot) : List (Nat × Text) :=
  slots.filterMap fun slot => do
    let heading ← headings[← slot.heading]?
    some (slot.call.offset, idProperty heading.slug)

/-- The code with texts inserted at positions, which count from `start` on. -/
def insertAll (start : Nat) : List (Nat × Text) → Text → Text
  | [], code => code
  | (position, inserted) :: others, code =>
    code.take (position - start) ++ inserted ++
      insertAll position others (code.drop (position - start))

/-- The code with the ids of the headings inserted into the props of their calls. -/
def injectIds (headings : List HeadingRecord) (code : Text) : Text :=
  insertAll 0 (insertions headings (Assignment.assign headings (locate code))) code

end MdxBuild.Generated
