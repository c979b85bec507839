import MdxBuild.Text.Line

/-!
# Content digests

A digest names a content together with the options that matter for what is made of it. Line breaks
are unified first, so a content has the same digest on every platform; a zero byte separates it
from the fingerprint of the options. The hash function is a parameter: the digests of the program
are those of SHA-256.
-/

namespace MdxBuild

/-- A function from byte lists to the texts that name them. -/
abbrev Hash : Type :=
  List UInt8 → Text

namespace Text

/-- The UTF-8 form of a text. -/
def utf8 (text : Text) : List UInt8 :=
  text.flatMap String.utf8EncodeChar

@[simp]
theorem utf8_nil : utf8 [] = [] :=
  rfl

@[simp]
theorem utf8_append (first second : Text) : utf8 (first ++ second) = utf8 first ++ utf8 second :=
  List.flatMap_append

end Text

namespace Digest

/-- The bytes that stand for a content under a fingerprint. -/
def preimage (content fingerprint : Text) : List UInt8 :=
  Text.utf8 (Text.unifyNewlines content) ++ [0] ++ Text.utf8 fingerprint

/-- The digest of a content under a fingerprint. -/
def compute (hash : Hash) (content fingerprint : Text) : Text :=
  hash (preimage content fingerprint)

end Digest

end MdxBuild
