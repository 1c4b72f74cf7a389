import ZodSchemas.Text.Utf8

namespace ZodSchemas.Text

/-!
# SHA-256

The digest of a text is that of its UTF-8 bytes.  The bytes are padded to blocks
of sixteen words, and each block is mixed into a state of eight words over
sixty-four rounds.
-/

/-- The eight words of the state. -/
structure DigestState where
  a : UInt32
  b : UInt32
  c : UInt32
  d : UInt32
  e : UInt32
  f : UInt32
  g : UInt32
  h : UInt32
deriving Repr, DecidableEq

/-- The constants of the rounds: fractions of the cube roots of the first primes. -/
def roundConstants : List UInt32 :=
  [0x428a2f98, 0x71374491, 0xb5c0fbcf, 0xe9b5dba5, 0x3956c25b, 0x59f111f1,
    0x923f82a4, 0xab1c5ed5, 0xd807aa98, 0x12835b01, 0x243185be, 0x550c7dc3,
    0x72be5d74, 0x80deb1fe, 0x9bdc06a7, 0xc19bf174, 0xe49b69c1, 0xefbe4786,
    0x0fc19dc6, 0x240ca1cc, 0x2de92c6f, 0x4a7484aa, 0x5cb0a9dc, 0x76f988da,
    0x983e5152, 0xa831c66d, 0xb00327c8, 0xbf597fc7, 0xc6e00bf3, 0xd5a79147,
    0x06ca6351, 0x14292967, 0x27b70a85, 0x2e1b2138, 0x4d2c6dfc, 0x53380d13,
    0x650a7354, 0x766a0abb, 0x81c2c92e, 0x92722c85, 0xa2bfe8a1, 0xa81a664b,
    0xc24b8b70, 0xc76c51a3, 0xd192e819, 0xd6990624, 0xf40e3585, 0x106aa070,
    0x19a4c116, 0x1e376c08, 0x2748774c, 0x34b0bcb5, 0x391c0cb3, 0x4ed8aa4a,
    0x5b9cca4f, 0x682e6ff3, 0x748f82ee, 0x78a5636f, 0x84c87814, 0x8cc70208,
    0x90befffa, 0xa4506ceb, 0xbef9a3f7, 0xc67178f2]

/-- The state before the first block: fractions of the square roots of the first primes. -/
def initialState : DigestState :=
  ⟨0x6a09e667, 0xbb67ae85, 0x3c6ef372, 0xa54ff53a,
    0x510e527f, 0x9b05688c, 0x1f83d9ab, 0x5be0cd19⟩

def rotateRight (word amount : UInt32) : UInt32 :=
  (word >>> amount) ||| (word <<< (32 - amount))

/-- The words of a list of bytes, the most significant byte first. -/
def wordsOf : List UInt8 → List UInt32
  | first :: second :: third :: fourth :: rest =>
      ((first.toUInt32 <<< 24) ||| (second.toUInt32 <<< 16) ||| (third.toUInt32 <<< 8)
        ||| fourth.toUInt32) :: wordsOf rest
  | _ => []

/-- The bytes of a number, the most significant one first. -/
def bigEndian (width value : Nat) : List UInt8 :=
  (List.range width).reverse.map fun place => UInt8.ofNat (value / Nat.pow 256 place % 256)

/-- What is put behind a message: a mark, zeros, and the length in bits. -/
def padding (length : Nat) : List UInt8 :=
  0x80 :: List.replicate ((119 - length % 64) % 64) 0 ++ bigEndian 8 (length * 8)

/-- The word that the recurrence adds to a schedule. -/
def nextWord (words : Array UInt32) : UInt32 :=
  let back (distance : Nat) := words.getD (words.size - distance) 0
  let far := back 15
  let near := back 2
  back 16 + (rotateRight far 7 ^^^ rotateRight far 18 ^^^ (far >>> 3)) + back 7
    + (rotateRight near 17 ^^^ rotateRight near 19 ^^^ (near >>> 10))

/-- The words of the rounds for a block. -/
def schedule (block : List UInt32) : Array UInt32 :=
  (List.range 48).foldl (fun words _ => words.push (nextWord words)) block.toArray

def mixWord (state : DigestState) (constant word : UInt32) : DigestState :=
  let choice := (state.e &&& state.f) ^^^ (~~~state.e &&& state.g)
  let majority := (state.a &&& state.b) ^^^ (state.a &&& state.c) ^^^ (state.b &&& state.c)
  let upper := rotateRight state.a 2 ^^^ rotateRight state.a 13 ^^^ rotateRight state.a 22
  let lower := rotateRight state.e 6 ^^^ rotateRight state.e 11 ^^^ rotateRight state.e 25
  let mixed := state.h + lower + choice + constant + word
  ⟨mixed + upper + majority, state.a, state.b, state.c, state.d + mixed, state.e, state.f, state.g⟩

def mixBlock (state : DigestState) (block : List UInt32) : DigestState :=
  let mixed := (roundConstants.zip (schedule block).toList).foldl
    (fun mixed entry => mixWord mixed entry.1 entry.2) state
  ⟨state.a + mixed.a, state.b + mixed.b, state.c + mixed.c, state.d + mixed.d,
    state.e + mixed.e, state.f + mixed.f, state.g + mixed.g, state.h + mixed.h⟩

/-- Mix the blocks of a list of words into the state, at most `count` of them. -/
def mixBlocks : (count : Nat) → DigestState → List UInt32 → DigestState
  | 0, state, _ => state
  | count + 1, state, words => mixBlocks count (mixBlock state (words.take 16)) (words.drop 16)

/-- The digest of a message as a hexadecimal numeral. -/
def digest (message : List UInt8) : String :=
  let words := wordsOf (message ++ padding message.length)
  let state := mixBlocks (words.length / 16) initialState words
  String.ofList (([state.a, state.b, state.c, state.d, state.e, state.f, state.g, state.h]).flatMap
    fun word => hexDigits 8 word.toNat)

def textDigest (text : String) : String :=
  digest (encodeUtf8 text)

end ZodSchemas.Text
