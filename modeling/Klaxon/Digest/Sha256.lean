/-!
# SHA-256

The digest of a list of bytes. The bytes are padded to whole blocks of 64 (`padded_length`), and
each block is compressed into a state of eight words.
-/

namespace Klaxon.Digest

/-- The state of the digest: eight words of 32 bits. -/
structure State where
  a : UInt32
  b : UInt32
  c : UInt32
  d : UInt32
  e : UInt32
  f : UInt32
  g : UInt32
  h : UInt32

/-- The state before the first block. -/
def initialState : State :=
  ⟨0x6a09e667, 0xbb67ae85, 0x3c6ef372, 0xa54ff53a, 0x510e527f, 0x9b05688c, 0x1f83d9ab, 0x5be0cd19⟩

/-- The constants of the 64 rounds. -/
def roundConstants : List UInt32 :=
  [0x428a2f98, 0x71374491, 0xb5c0fbcf, 0xe9b5dba5, 0x3956c25b, 0x59f111f1, 0x923f82a4, 0xab1c5ed5,
    0xd807aa98, 0x12835b01, 0x243185be, 0x550c7dc3, 0x72be5d74, 0x80deb1fe, 0x9bdc06a7, 0xc19bf174,
    0xe49b69c1, 0xefbe4786, 0x0fc19dc6, 0x240ca1cc, 0x2de92c6f, 0x4a7484aa, 0x5cb0a9dc, 0x76f988da,
    0x983e5152, 0xa831c66d, 0xb00327c8, 0xbf597fc7, 0xc6e00bf3, 0xd5a79147, 0x06ca6351, 0x14292967,
    0x27b70a85, 0x2e1b2138, 0x4d2c6dfc, 0x53380d13, 0x650a7354, 0x766a0abb, 0x81c2c92e, 0x92722c85,
    0xa2bfe8a1, 0xa81a664b, 0xc24b8b70, 0xc76c51a3, 0xd192e819, 0xd6990624, 0xf40e3585, 0x106aa070,
    0x19a4c116, 0x1e376c08, 0x2748774c, 0x34b0bcb5, 0x391c0cb3, 0x4ed8aa4a, 0x5b9cca4f, 0x682e6ff3,
    0x748f82ee, 0x78a5636f, 0x84c87814, 0x8cc70208, 0x90befffa, 0xa4506ceb, 0xbef9a3f7, 0xc67178f2]

/-- Turns a word to the right. -/
def turn (x : UInt32) (n : UInt32) : UInt32 := (x >>> n) ||| (x <<< (32 - n))

/-- The word of four bytes, the first one the highest. -/
def wordOf (a b c d : UInt8) : UInt32 :=
  (a.toUInt32 <<< 24) ||| (b.toUInt32 <<< 16) ||| (c.toUInt32 <<< 8) ||| d.toUInt32

/-- The bytes of a word, the highest first. -/
def bytesOfWord (w : UInt32) : List UInt8 :=
  [(w >>> 24).toUInt8, (w >>> 16).toUInt8, (w >>> 8).toUInt8, w.toUInt8]

/-- The words of a list of bytes. -/
def wordsOf : List UInt8 → List UInt32
  | a :: b :: c :: d :: rest => wordOf a b c d :: wordsOf rest
  | _ => []

/-- The word that follows the last sixteen words of a schedule. -/
def nextWord (words : Array UInt32) : UInt32 :=
  let ago (n : Nat) : UInt32 := words.getD (words.size - n) 0
  let s₀ := turn (ago 15) 7 ^^^ turn (ago 15) 18 ^^^ (ago 15 >>> 3)
  let s₁ := turn (ago 2) 17 ^^^ turn (ago 2) 19 ^^^ (ago 2 >>> 10)
  ago 16 + s₀ + ago 7 + s₁

/-- Extends a schedule by a number of words. -/
def extend : Nat → Array UInt32 → Array UInt32
  | 0, words => words
  | n + 1, words => extend n (words.push (nextWord words))

/-- One round with its constant and its word. -/
def round (s : State) (k w : UInt32) : State :=
  let s₁ := turn s.e 6 ^^^ turn s.e 11 ^^^ turn s.e 25
  let choice := (s.e &&& s.f) ^^^ ((~~~ s.e) &&& s.g)
  let t₁ := s.h + s₁ + choice + k + w
  let s₀ := turn s.a 2 ^^^ turn s.a 13 ^^^ turn s.a 22
  let majority := (s.a &&& s.b) ^^^ (s.a &&& s.c) ^^^ (s.b &&& s.c)
  ⟨t₁ + s₀ + majority, s.a, s.b, s.c, s.d + t₁, s.e, s.f, s.g⟩

/-- The sum of two states, word by word. -/
def State.add (s t : State) : State :=
  ⟨s.a + t.a, s.b + t.b, s.c + t.c, s.d + t.d, s.e + t.e, s.f + t.f, s.g + t.g, s.h + t.h⟩

/-- Compresses a block of 64 bytes into a state. -/
def compress (s : State) (block : List UInt8) : State :=
  let schedule := (extend 48 (wordsOf block).toArray).toList
  s.add ((roundConstants.zip schedule).foldl (fun s (k, w) => round s k w) s)

/-- Compresses blocks one after the other. -/
def compressAll (s : State) (bytes : List UInt8) : State :=
  match bytes with
  | [] => s
  | b :: rest => compressAll (compress s ((b :: rest).take 64)) ((b :: rest).drop 64)
termination_by bytes.length
decreasing_by
  simp only [List.length_drop, List.length_cons]
  omega

/-- A number as eight bytes, the highest first. -/
def eightBytes (n : Nat) : List UInt8 :=
  (List.range 8).map fun i => UInt8.ofNat (n / Nat.pow 256 (7 - i))

/-- Fills bytes up to whole blocks: a one bit, zeros, and the length in bits. -/
def padded (bytes : List UInt8) : List UInt8 :=
  bytes ++ 0x80 :: List.replicate ((119 - bytes.length % 64) % 64) 0 ++
    eightBytes (8 * bytes.length)

/-- Padding fills whole blocks. -/
theorem padded_length (bytes : List UInt8) : (padded bytes).length % 64 = 0 := by
  simp only [padded, eightBytes, List.length_append, List.length_cons, List.length_replicate,
    List.length_map, List.length_range]
  omega

/-- The bytes of a state. -/
def State.bytes (s : State) : List UInt8 :=
  [s.a, s.b, s.c, s.d, s.e, s.f, s.g, s.h].flatMap bytesOfWord

/-- The SHA-256 digest of bytes. -/
def sha256 (bytes : List UInt8) : List UInt8 := (compressAll initialState (padded bytes)).bytes

end Klaxon.Digest
