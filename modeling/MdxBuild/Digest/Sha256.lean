import MdxBuild.Text.Basic

/-!
# SHA-256

The hash function with which the build names contents, on lists of bytes. `hexDigest` is the form
that file names, manifests and fingerprints use: 64 lower-case hexadecimal digits.
-/

namespace MdxBuild.Sha256

/-- The eight words of a hash value. -/
structure Words where
  a : UInt32
  b : UInt32
  c : UInt32
  d : UInt32
  e : UInt32
  f : UInt32
  g : UInt32
  h : UInt32
deriving DecidableEq, Repr

/-- The first words of the fractional parts of the square roots of the first eight primes. -/
def initial : Words :=
  ⟨0x6a09e667, 0xbb67ae85, 0x3c6ef372, 0xa54ff53a, 0x510e527f, 0x9b05688c, 0x1f83d9ab, 0x5be0cd19⟩

/-- The first words of the fractional parts of the cube roots of the first 64 primes. -/
def roundConstants : List UInt32 :=
  [0x428a2f98, 0x71374491, 0xb5c0fbcf, 0xe9b5dba5, 0x3956c25b, 0x59f111f1, 0x923f82a4, 0xab1c5ed5,
   0xd807aa98, 0x12835b01, 0x243185be, 0x550c7dc3, 0x72be5d74, 0x80deb1fe, 0x9bdc06a7, 0xc19bf174,
   0xe49b69c1, 0xefbe4786, 0x0fc19dc6, 0x240ca1cc, 0x2de92c6f, 0x4a7484aa, 0x5cb0a9dc, 0x76f988da,
   0x983e5152, 0xa831c66d, 0xb00327c8, 0xbf597fc7, 0xc6e00bf3, 0xd5a79147, 0x06ca6351, 0x14292967,
   0x27b70a85, 0x2e1b2138, 0x4d2c6dfc, 0x53380d13, 0x650a7354, 0x766a0abb, 0x81c2c92e, 0x92722c85,
   0xa2bfe8a1, 0xa81a664b, 0xc24b8b70, 0xc76c51a3, 0xd192e819, 0xd6990624, 0xf40e3585, 0x106aa070,
   0x19a4c116, 0x1e376c08, 0x2748774c, 0x34b0bcb5, 0x391c0cb3, 0x4ed8aa4a, 0x5b9cca4f, 0x682e6ff3,
   0x748f82ee, 0x78a5636f, 0x84c87814, 0x8cc70208, 0x90befffa, 0xa4506ceb, 0xbef9a3f7, 0xc67178f2]

/-- A word rotated to the right. -/
def rotate (word : UInt32) (amount : UInt32) : UInt32 :=
  (word >>> amount) ||| (word <<< (32 - amount))

/-- The message with its padding: a one bit, zeros and the length in bits, up to a multiple of 64
bytes. -/
def pad (message : List UInt8) : List UInt8 :=
  let zeros := (119 - message.length % 64) % 64
  let bits := 8 * message.length
  message ++ [0x80] ++ List.replicate zeros 0 ++
    (List.range 8).map fun index => UInt8.ofNat (bits / Nat.pow 256 (7 - index))

/-- The big-endian words of a list of bytes. -/
def wordsOf : List UInt8 → List UInt32
  | first :: second :: third :: fourth :: rest =>
    ((first.toUInt32 <<< 24) ||| (second.toUInt32 <<< 16) ||| (third.toUInt32 <<< 8) |||
      fourth.toUInt32) :: wordsOf rest
  | _ => []

/-- The next word of the message schedule, from the last sixteen words, the latest first. -/
def nextWord (latest : List UInt32) : UInt32 :=
  let word := fun index => latest.getD (index - 1) 0
  let small := word 15
  let big := word 2
  word 16 + (rotate small 7 ^^^ rotate small 18 ^^^ (small >>> 3)) + word 7 +
    (rotate big 17 ^^^ rotate big 19 ^^^ (big >>> 10))

/-- The message schedule of a block, the latest word first, with `count` more words. -/
def extend : (count : Nat) → List UInt32 → List UInt32
  | 0, latest => latest
  | count + 1, latest => extend count (nextWord latest :: latest)

/-- One round of the compression function. -/
def round (state : Words) (constant word : UInt32) : Words :=
  let first := state.h + (rotate state.e 6 ^^^ rotate state.e 11 ^^^ rotate state.e 25) +
    ((state.e &&& state.f) ^^^ (~~~state.e &&& state.g)) + constant + word
  let second := (rotate state.a 2 ^^^ rotate state.a 13 ^^^ rotate state.a 22) +
    ((state.a &&& state.b) ^^^ (state.a &&& state.c) ^^^ (state.b &&& state.c))
  ⟨first + second, state.a, state.b, state.c, state.d + first, state.e, state.f, state.g⟩

/-- The hash value after one more block of sixteen words. -/
def compress (state : Words) (block : List UInt32) : Words :=
  let schedule := (extend 48 block.reverse).reverse
  let final := (roundConstants.zip schedule).foldl (fun state (constant, word) =>
    round state constant word) state
  ⟨state.a + final.a, state.b + final.b, state.c + final.c, state.d + final.d,
   state.e + final.e, state.f + final.f, state.g + final.g, state.h + final.h⟩

/-- The hash value after a list of words, in at most `count` blocks of sixteen. -/
def compressAll : (count : Nat) → Words → List UInt32 → Words
  | 0, state, _ => state
  | count + 1, state, message =>
    compressAll count (compress state (message.take 16)) (message.drop 16)

/-- The hash value of a message. -/
def hash (message : List UInt8) : Words :=
  let padded := pad message
  compressAll (padded.length / 64) initial (wordsOf padded)

/-- The eight hexadecimal digits of a word. -/
def hexWord (word : UInt32) : Text :=
  (List.range 8).map fun index => Nat.digitChar (word.toNat / Nat.pow 16 (7 - index) % 16)

/-- The hash value of a message as 64 hexadecimal digits. -/
def hexDigest (message : List UInt8) : Text :=
  let words := hash message
  [words.a, words.b, words.c, words.d, words.e, words.f, words.g, words.h].flatMap hexWord

end MdxBuild.Sha256
