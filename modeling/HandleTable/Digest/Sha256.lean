/-!
# SHA-256

The hash of a sequence of bytes: the message is padded to whole blocks of
sixty-four bytes, and each block stirs a state of eight words in sixty-four
rounds.  The message schedule is kept as a window of sixteen words, of which
each round takes the first and appends the next one.
-/

namespace HandleTable.Digest.Sha256

/-- The chaining state: eight words. -/
structure State where
  a : UInt32
  b : UInt32
  c : UInt32
  d : UInt32
  e : UInt32
  f : UInt32
  g : UInt32
  h : UInt32

/-- The state before the first block. -/
def initial : State :=
  ⟨0x6a09e667, 0xbb67ae85, 0x3c6ef372, 0xa54ff53a, 0x510e527f, 0x9b05688c, 0x1f83d9ab, 0x5be0cd19⟩

/-- The constants of the sixty-four rounds. -/
def roundConstants : List UInt32 :=
  [0x428a2f98, 0x71374491, 0xb5c0fbcf, 0xe9b5dba5, 0x3956c25b, 0x59f111f1, 0x923f82a4, 0xab1c5ed5,
   0xd807aa98, 0x12835b01, 0x243185be, 0x550c7dc3, 0x72be5d74, 0x80deb1fe, 0x9bdc06a7, 0xc19bf174,
   0xe49b69c1, 0xefbe4786, 0x0fc19dc6, 0x240ca1cc, 0x2de92c6f, 0x4a7484aa, 0x5cb0a9dc, 0x76f988da,
   0x983e5152, 0xa831c66d, 0xb00327c8, 0xbf597fc7, 0xc6e00bf3, 0xd5a79147, 0x06ca6351, 0x14292967,
   0x27b70a85, 0x2e1b2138, 0x4d2c6dfc, 0x53380d13, 0x650a7354, 0x766a0abb, 0x81c2c92e, 0x92722c85,
   0xa2bfe8a1, 0xa81a664b, 0xc24b8b70, 0xc76c51a3, 0xd192e819, 0xd6990624, 0xf40e3585, 0x106aa070,
   0x19a4c116, 0x1e376c08, 0x2748774c, 0x34b0bcb5, 0x391c0cb3, 0x4ed8aa4a, 0x5b9cca4f, 0x682e6ff3,
   0x748f82ee, 0x78a5636f, 0x84c87814, 0x8cc70208, 0x90befffa, 0xa4506ceb, 0xbef9a3f7, 0xc67178f2]

/-- A word turned to the right. -/
def rotateRight (word amount : UInt32) : UInt32 :=
  (word >>> amount) ||| (word <<< (32 - amount))

/-- The word of the schedule that follows a window of sixteen. -/
def nextWord (window : List UInt32) : UInt32 :=
  let second := window.getD 1 0
  let fifteenth := window.getD 14 0
  let small := rotateRight second 7 ^^^ rotateRight second 18 ^^^ (second >>> 3)
  let large := rotateRight fifteenth 17 ^^^ rotateRight fifteenth 19 ^^^ (fifteenth >>> 10)
  window.getD 0 0 + small + window.getD 9 0 + large

/-- One round with its word and its constant. -/
def round (s : State) (word constant : UInt32) : State :=
  let sumE := rotateRight s.e 6 ^^^ rotateRight s.e 11 ^^^ rotateRight s.e 25
  let choice := (s.e &&& s.f) ^^^ (~~~s.e &&& s.g)
  let first := s.h + sumE + choice + constant + word
  let sumA := rotateRight s.a 2 ^^^ rotateRight s.a 13 ^^^ rotateRight s.a 22
  let majority := (s.a &&& s.b) ^^^ (s.a &&& s.c) ^^^ (s.b &&& s.c)
  ⟨first + sumA + majority, s.a, s.b, s.c, s.d + first, s.e, s.f, s.g⟩

/-- The rounds of a block, one for each constant. -/
def rounds (s : State) (window : List UInt32) : List UInt32 → State
  | [] => s
  | constant :: rest =>
      rounds (round s (window.headD 0) constant) (window.tail ++ [nextWord window]) rest

/-- The state after a block of sixteen words. -/
def compress (s : State) (block : List UInt32) : State :=
  let stirred := rounds s block roundConstants
  ⟨s.a + stirred.a, s.b + stirred.b, s.c + stirred.c, s.d + stirred.d,
    s.e + stirred.e, s.f + stirred.f, s.g + stirred.g, s.h + stirred.h⟩

/-- The bytes of a number below 2^64, most significant first. -/
def lengthBytes (value : Nat) : List UInt8 :=
  (List.range 8).map fun position => UInt8.ofNat (value >>> (8 * (7 - position)))

/-- The message with a marking bit, as many zeros as complete the last block, and
its length in bits. -/
def pad (message : List UInt8) : List UInt8 :=
  let zeros := (119 - message.length % 64) % 64
  message ++ 0x80 :: List.replicate zeros 0 ++ lengthBytes (8 * message.length)

/-- Four bytes each as words, most significant first. -/
def words : List UInt8 → List UInt32
  | first :: second :: third :: fourth :: rest =>
      ((first.toUInt32 <<< 24) ||| (second.toUInt32 <<< 16) ||| (third.toUInt32 <<< 8)
        ||| fourth.toUInt32) :: words rest
  | _ => []

/-- The state after all blocks of sixteen words. -/
def absorb (s : State) (message : List UInt32) : State :=
  if 16 ≤ message.length then absorb (compress s (message.take 16)) (message.drop 16) else s
termination_by message.length
decreasing_by simp only [List.length_drop]; omega

/-- The eight words of the hash of a message. -/
def hash (message : List UInt8) : State :=
  absorb initial (words (pad message))

/-- The first eight bytes of the hash of a message, as one number. -/
def leadingWord (message : List UInt8) : UInt64 :=
  let state := hash message
  (state.a.toUInt64 <<< 32) ||| state.b.toUInt64

theorem length_lengthBytes (value : Nat) : (lengthBytes value).length = 8 := by
  simp [lengthBytes]

end HandleTable.Digest.Sha256
