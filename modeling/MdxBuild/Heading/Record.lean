import MdxBuild.Json.Value

/-!
# Heading records

A heading of a document as the native extractor lists it: its depth, the slug that anchors it and
its text.
-/

namespace MdxBuild

/-- A heading of a document. -/
structure HeadingRecord where
  depth : Nat
  slug : Text
  text : Text
deriving DecidableEq, Repr

/-- A heading as JSON. -/
def HeadingRecord.toJson (record : HeadingRecord) : Json :=
  .object [
    ("depth".toList, .ofNat record.depth),
    ("slug".toList, .string record.slug),
    ("text".toList, .string record.text)]

end MdxBuild
