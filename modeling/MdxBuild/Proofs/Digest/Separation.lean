import MdxBuild.Proofs.Directive.Attribute
import MdxBuild.Proofs.Heading.Offset
import MdxBuild.Proofs.Text.Newline
import MdxBuild.Session.Preparation

/-!
# What digests separate

The bytes that are hashed for a content under a fingerprint determine both, up to the line breaks of
the content. A content may hold zero bytes and may end like a fingerprint. As no fingerprint holds a
zero byte, the last one in the message is the one that separates the two. So a digest names one
content under one fingerprint, as far as the hash function does not collide.
-/

namespace MdxBuild

open Text

variable {source read rest fingerprint other : Text}

/-! ## Line breaks -/

/-- The second text is the first one with its line breaks read as line feeds. A carriage return
forms one line break with a line feed right behind it, and is one by itself otherwise. -/
inductive ReadsBreaks : Text → Text → Prop
  | nil : ReadsBreaks [] []
  | pair (rest read : Text) (reads : ReadsBreaks rest read) :
      ReadsBreaks ('\r' :: '\n' :: rest) ('\n' :: read)
  | lone (rest read : Text) (noFeed : rest.head? ≠ some '\n') (reads : ReadsBreaks rest read) :
      ReadsBreaks ('\r' :: rest) ('\n' :: read)
  | plain (char : Char) (rest read : Text) (noReturn : char ≠ '\r')
      (reads : ReadsBreaks rest read) : ReadsBreaks (char :: rest) (char :: read)

namespace Text

theorem unifyNewlines_return (noFeed : rest.head? ≠ some '\n') :
    unifyNewlines ('\r' :: rest) = '\n' :: unifyNewlines rest := by
  rw [unifyNewlines, if_pos rfl]
  rintro more - rfl
  exact noFeed rfl

theorem unifyNewlines_cons {char : Char} (noReturn : char ≠ '\r') (rest : Text) :
    unifyNewlines (char :: rest) = char :: unifyNewlines rest := by
  rw [unifyNewlines, if_neg noReturn]
  exact fun _ isReturn _ => noReturn isReturn

theorem readsBreaks_iff : ReadsBreaks source read ↔ read = unifyNewlines source := by
  constructor
  · intro reads
    induction reads with
    | nil => rfl
    | pair rest read _ ih => rw [unifyNewlines, ih]
    | lone rest read noFeed _ ih => rw [unifyNewlines_return noFeed, ih]
    | plain char rest read noReturn _ ih => rw [unifyNewlines_cons noReturn, ih]
  · rintro rfl
    fun_induction unifyNewlines source with
    | case1 => exact .nil
    | case2 rest ih => exact .pair rest _ ih
    | case3 char rest notPair ih =>
      split
      · next isReturn =>
        subst isReturn
        refine .lone rest _ ?_ ih
        intro isFeed
        obtain ⟨more, rfl⟩ := List.head?_eq_some_iff.mp isFeed
        exact notPair more rfl rfl
      · next noReturn => exact .plain char rest _ noReturn ih

theorem return_notMem_unifyNewlines (source : Text) : '\r' ∉ unifyNewlines source := by
  fun_induction unifyNewlines source with
  | case1 => simp
  | case2 rest ih => simpa using ih
  | case3 char rest _ ih =>
    rw [List.mem_cons, not_or]
    refine ⟨?_, ih⟩
    split
    · decide
    · next noReturn => exact Ne.symm noReturn

/-- Line breaks are unified by two replacements, first that of the breaks of two characters. -/
theorem unifyNewlines_eq_replaceAll (source : Text) :
    unifyNewlines source = replaceAll ['\r'] ['\n'] (replaceAll ['\r', '\n'] ['\n'] source) := by
  simp only [replaceAll, List.isEmpty_cons, Bool.false_eq_true, if_false,
    Attribute.replaceFrom_singleton]
  fun_induction unifyNewlines source with
  | case1 => rfl
  | case2 rest ih =>
    have isReplaced : replaceFrom ['\r', '\n'] ['\n'] 0 ('\r' :: '\n' :: rest) =
        '\n' :: replaceFrom ['\r', '\n'] ['\n'] 0 rest := by
      simp [replaceFrom]
    rw [isReplaced, List.flatMap_cons, ← ih]
    rfl
  | case3 char rest notPair ih =>
    have differs : ¬(['\r', '\n'] : Text).isPrefixOf (char :: rest) = true := by
      intro isPrefix
      obtain ⟨more, isText⟩ := List.isPrefixOf_iff_prefix.mp isPrefix
      obtain ⟨rfl, rfl⟩ := List.cons.inj isText
      exact notPair more rfl rfl
    rw [replaceFrom, if_neg differs, List.flatMap_cons, ← ih]
    split <;> rfl

/-! ## Zero bytes -/

/-- The zero byte is the form of the zero character only. -/
theorem zero_notMem_utf8 (noZero : '\x00' ∉ fingerprint) : 0 ∉ utf8 fingerprint := by
  intro member
  obtain ⟨char, isChar, inForm⟩ := List.mem_flatMap.mp member
  by_cases ascii : Generated.Bytewise.IsAscii char
  · have isByte := List.mem_map_of_mem (f := fun byte : UInt8 => Char.ofNat byte.toNat) inForm
    rw [Generated.Bytewise.utf8EncodeChar_of_isAscii ascii, List.mem_singleton] at isByte
    exact noZero (isByte ▸ isChar)
  · have high := Generated.Bytewise.high_of_mem_utf8EncodeChar ascii 0 inForm
    exact absurd high (by decide)

end Text

/-- The last separator of a list tells its two parts. -/
theorem append_separator_inj {α : Type} {separator : α} {first second behind after : List α}
    (noneBehind : separator ∉ behind) (noneAfter : separator ∉ after) :
    first ++ separator :: behind = second ++ separator :: after ↔
      first = second ∧ behind = after := by
  constructor
  · intro same
    rcases List.append_eq_append_iff.mp same with
      ⟨between, rfl, isBehind⟩ | ⟨between, rfl, isAfter⟩
    · cases between with
      | nil => simpa using isBehind
      | cons char between =>
        obtain ⟨rfl, rfl⟩ := List.cons.inj isBehind
        simp at noneBehind
    · cases between with
      | nil => simpa [eq_comm] using isAfter
      | cons char between =>
        obtain ⟨rfl, rfl⟩ := List.cons.inj isAfter
        simp at noneAfter
  · rintro ⟨rfl, rfl⟩
    rfl

namespace Digest

variable {hash : Hash} {first second : Text}

/-! ## Contents and fingerprints -/

theorem preimage_eq_iff (noZero : '\x00' ∉ fingerprint) (noneInOther : '\x00' ∉ other) :
    preimage first fingerprint = preimage second other ↔
      unifyNewlines first = unifyNewlines second ∧ fingerprint = other := by
  rw [preimage, preimage, List.append_assoc, List.append_assoc, List.singleton_append,
    List.singleton_append,
    append_separator_inj (zero_notMem_utf8 noZero) (zero_notMem_utf8 noneInOther)]
  exact and_congr ⟨utf8_injective, congrArg utf8⟩ ⟨utf8_injective, congrArg utf8⟩

/-- The fingerprints that digests of contents are made under. -/
inductive IsFingerprint (hash : Hash) : Text → Prop
  | frontmatter : IsFingerprint hash Session.frontmatterFingerprint
  | compile (options : BuildOptions) : IsFingerprint hash (options.compileFingerprint hash)
  | lowering (options : BuildOptions) : IsFingerprint hash (options.loweringFingerprint hash)

theorem zero_notMem_of_isHex {digest : Text} (hex : isHex digest = true) : '\x00' ∉ digest := by
  rw [isHex, Bool.and_eq_true, List.all_eq_true] at hex
  intro member
  cases hex.2 _ member

theorem IsFingerprint.zero_notMem (hexadecimal : hash.IsHexadecimal)
    (isFingerprint : IsFingerprint hash fingerprint) : '\x00' ∉ fingerprint := by
  cases isFingerprint with
  | frontmatter => decide
  | compile options => exact zero_notMem_of_isHex (hexadecimal _)
  | lowering options => exact zero_notMem_of_isHex (hexadecimal _)

/-- Digests separate contents and fingerprints. Unifying the line breaks of a content reads each of
them as one line feed, which is what two replacements do, leaves no carriage return and changes
nothing when it is done again. No fingerprint that digests are made under holds the zero character.
Unless the hash function collides on the messages, two digests under fingerprints without it are the
same just if the contents are the same up to their line breaks and the fingerprints are the same. -/
theorem compute_separates (hash : Hash) :
    (∀ source, '\r' ∉ unifyNewlines source ∧
      (∀ read, ReadsBreaks source read ↔ read = unifyNewlines source) ∧
      unifyNewlines source = replaceAll ['\r'] ['\n'] (replaceAll ['\r', '\n'] ['\n'] source) ∧
      unifyNewlines (unifyNewlines source) = unifyNewlines source) ∧
    (hash.IsHexadecimal →
      ∀ fingerprint, IsFingerprint hash fingerprint → '\x00' ∉ fingerprint) ∧
    ∀ first second fingerprint other, '\x00' ∉ fingerprint → '\x00' ∉ other →
      hash.TellsApart (preimage first fingerprint) (preimage second other) →
        (compute hash first fingerprint = compute hash second other ↔
          unifyNewlines first = unifyNewlines second ∧ fingerprint = other) := by
  refine ⟨fun source => ?_, fun hexadecimal fingerprint => IsFingerprint.zero_notMem hexadecimal,
    fun first second fingerprint other noZero noneInOther apart => ?_⟩
  · have plain := return_notMem_unifyNewlines source
    exact ⟨plain, fun _ => readsBreaks_iff, unifyNewlines_eq_replaceAll source,
      unifyNewlines_of_notMem plain⟩
  · rw [← preimage_eq_iff noZero noneInOther]
    exact ⟨apart, congrArg hash⟩

/-- A content that ends in a zero character and the fingerprint. It has the same digest with either
line break, and not that of the content without this end. -/
theorem compute_of_fingerprintEnd :
    let digest := fun content : String =>
      compute Sha256.hexDigest content.toList Session.frontmatterFingerprint
    digest "a\r\x00frontmatter" = digest "a\n\x00frontmatter" ∧
      digest "a\r\n\x00frontmatter" ≠ digest "a\n" := by
  intro digest
  obtain ⟨-, arePlain, separates⟩ := compute_separates Sha256.hexDigest
  have isPlain := arePlain Sha256.isHexadecimal_hexDigest _ .frontmatter
  have differ : digest "a\r\n\x00frontmatter" ≠ digest "a\n" := by
    decide +kernel
  constructor
  · exact (separates _ _ _ _ isPlain isPlain fun _ => by decide +kernel).mpr (by decide +kernel)
  · intro same
    have apart := separates _ _ _ _ isPlain isPlain fun collides => absurd collides differ
    exact absurd (apart.mp same).1 (by decide +kernel)

end Digest

end MdxBuild
