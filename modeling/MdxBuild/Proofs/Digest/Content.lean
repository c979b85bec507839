import MdxBuild.Digest.Content
import MdxBuild.Digest.Sha256

/-!
# What a digest tells

Texts without carriage returns can be told from the bytes that are hashed for them, so they have
the same digest only if the hash function collides. The digests of SHA-256 are 64 hexadecimal
digits, so they can stand in file names.
-/

namespace MdxBuild

namespace Text

/-- A text is determined by its bytes. -/
theorem utf8_injective {first second : Text} (same : utf8 first = utf8 second) :
    first = second := by
  have encoded : first.utf8Encode = second.utf8Encode := by
    rw [List.utf8Encode, List.utf8Encode]
    exact congrArg List.toByteArray same
  have decoded := congrArg ByteArray.utf8Decode? encoded
  simpa using decoded

theorem length_utf8 (text : Text) : (utf8 text).length = utf8Length text := by
  induction text with
  | nil => rfl
  | cons char rest ih =>
    rw [utf8, List.flatMap_cons, List.length_append, ← utf8, ih, String.length_utf8EncodeChar,
      utf8Length_cons]

/-- A text without carriage returns is the same on every platform. -/
theorem unifyNewlines_of_notMem {text : Text} (plain : '\r' ∉ text) :
    unifyNewlines text = text := by
  induction text with
  | nil => rfl
  | cons char rest ih =>
    rw [List.mem_cons, not_or] at plain
    obtain ⟨differs, plainRest⟩ := plain
    rw [unifyNewlines]
    · rw [if_neg (Ne.symm differs), ih plainRest]
    · rintro _ rfl
      exact absurd rfl differs

end Text

namespace Digest

variable {first second fingerprint : Text}

/-- A content can be told from the bytes that are hashed for it, up to its line breaks. -/
theorem unifyNewlines_eq_of_preimage_eq
    (same : preimage first fingerprint = preimage second fingerprint) :
    Text.unifyNewlines first = Text.unifyNewlines second :=
  Text.utf8_injective (List.append_cancel_right (List.append_cancel_right same))

/-- A content without carriage returns can be told from the bytes that are hashed for it. -/
theorem eq_of_preimage_eq (plainFirst : '\r' ∉ first) (plainSecond : '\r' ∉ second)
    (same : preimage first fingerprint = preimage second fingerprint) : first = second := by
  have unified := unifyNewlines_eq_of_preimage_eq same
  rwa [Text.unifyNewlines_of_notMem plainFirst, Text.unifyNewlines_of_notMem plainSecond]
    at unified

/-- A lower-case hexadecimal digit. -/
def isHexDigit (char : Char) : Bool :=
  char.isDigit || ('a' ≤ char && char ≤ 'f')

/-- A digest as SHA-256 is written: 64 hexadecimal digits. -/
def isHex (digest : Text) : Bool :=
  digest.length = 64 && digest.all isHexDigit

end Digest

/-- The hash function does not collide on two messages. -/
def Hash.TellsApart (hash : Hash) (first second : List UInt8) : Prop :=
  hash first = hash second → first = second

/-- A hash function that names contents as SHA-256 does. -/
def Hash.IsHexadecimal (hash : Hash) : Prop :=
  ∀ bytes, Digest.isHex (hash bytes) = true

namespace Sha256

theorem length_hexWord (word : UInt32) : (hexWord word).length = 8 := by
  simp [hexWord]

theorem isHexDigit_digitChar : ∀ digit < 16, Digest.isHexDigit (Nat.digitChar digit) = true := by
  decide

theorem isHexDigit_of_mem_hexWord {word : UInt32} {char : Char} (member : char ∈ hexWord word) :
    Digest.isHexDigit char = true := by
  obtain ⟨index, -, rfl⟩ := List.mem_map.mp member
  exact isHexDigit_digitChar _ (Nat.mod_lt _ (by decide))

theorem isHexadecimal_hexDigest : Hash.IsHexadecimal hexDigest := by
  intro message
  rw [Digest.isHex, Bool.and_eq_true, decide_eq_true_eq, List.all_eq_true]
  constructor
  · simp [hexDigest, length_hexWord]
  · intro char member
    obtain ⟨word, -, inWord⟩ := List.mem_flatMap.mp member
    exact isHexDigit_of_mem_hexWord inWord

end Sha256

end MdxBuild
