import ConsensusEnvelope.Bytes.Basic

/-!
# SHA-256

The hash of FIPS 180-4. A message is followed by the byte `0x80`, as few zeros
as bring it to eight bytes below a multiple of 64, and its length in bits as
eight bytes. The blocks of 64 bytes are then folded into a chain value of eight
32-bit words.

The message schedule is kept as a window of sixteen words, the block itself to
begin with. Each round uses the first word and lets the window slide on by one.
-/

namespace ConsensusEnvelope.Sha256

/-- The eight words of the chain value, by their usual letters. -/
structure Chain where
  a : UInt32
  b : UInt32
  c : UInt32
  d : UInt32
  e : UInt32
  f : UInt32
  g : UInt32
  h : UInt32
  deriving DecidableEq

/-- The fractional parts of the square roots of the first eight primes. -/
def start : Chain :=
  ⟨0x6a09e667, 0xbb67ae85, 0x3c6ef372, 0xa54ff53a, 0x510e527f, 0x9b05688c, 0x1f83d9ab, 0x5be0cd19⟩

/-- The fractional parts of the cube roots of the first 64 primes, one for each
round. -/
def roundConstants : List UInt32 :=
  [0x428a2f98, 0x71374491, 0xb5c0fbcf, 0xe9b5dba5, 0x3956c25b, 0x59f111f1, 0x923f82a4, 0xab1c5ed5,
    0xd807aa98, 0x12835b01, 0x243185be, 0x550c7dc3, 0x72be5d74, 0x80deb1fe, 0x9bdc06a7, 0xc19bf174,
    0xe49b69c1, 0xefbe4786, 0x0fc19dc6, 0x240ca1cc, 0x2de92c6f, 0x4a7484aa, 0x5cb0a9dc, 0x76f988da,
    0x983e5152, 0xa831c66d, 0xb00327c8, 0xbf597fc7, 0xc6e00bf3, 0xd5a79147, 0x06ca6351, 0x14292967,
    0x27b70a85, 0x2e1b2138, 0x4d2c6dfc, 0x53380d13, 0x650a7354, 0x766a0abb, 0x81c2c92e, 0x92722c85,
    0xa2bfe8a1, 0xa81a664b, 0xc24b8b70, 0xc76c51a3, 0xd192e819, 0xd6990624, 0xf40e3585, 0x106aa070,
    0x19a4c116, 0x1e376c08, 0x2748774c, 0x34b0bcb5, 0x391c0cb3, 0x4ed8aa4a, 0x5b9cca4f, 0x682e6ff3,
    0x748f82ee, 0x78a5636f, 0x84c87814, 0x8cc70208, 0x90befffa, 0xa4506ceb, 0xbef9a3f7, 0xc67178f2]

/-- A word turned to the right by `n` bits, for `0 < n < 32`. -/
def rotateRight (w n : UInt32) : UInt32 :=
  (w >>> n) ||| (w <<< (32 - n))

/-- One round of the compression, with the round's constant `k` and schedule
word `w`. -/
def step (s : Chain) (k w : UInt32) : Chain :=
  let mixE := rotateRight s.e 6 ^^^ rotateRight s.e 11 ^^^ rotateRight s.e 25
  let choice := (s.e &&& s.f) ^^^ ((~~~s.e) &&& s.g)
  let t := s.h + mixE + choice + k + w
  let mixA := rotateRight s.a 2 ^^^ rotateRight s.a 13 ^^^ rotateRight s.a 22
  let majority := (s.a &&& s.b) ^^^ (s.a &&& s.c) ^^^ (s.b &&& s.c)
  ⟨t + (mixA + majority), s.a, s.b, s.c, s.d + t, s.e, s.f, s.g⟩

/-- The window one round further: its first word leaves and the word sixteen
places on enters. -/
def slide (w : List UInt32) : List UInt32 :=
  let low := w.getD 1 0
  let high := w.getD 14 0
  let mixLow := rotateRight low 7 ^^^ rotateRight low 18 ^^^ (low >>> 3)
  let mixHigh := rotateRight high 17 ^^^ rotateRight high 19 ^^^ (high >>> 10)
  w.drop 1 ++ [w.getD 0 0 + mixLow + w.getD 9 0 + mixHigh]

/-- Runs one round for each constant, along the schedule that the window
starts. -/
def rounds : List UInt32 → (window : List UInt32) → Chain → Chain
  | [], _, s => s
  | k :: ks, w, s => rounds ks (slide w) (step s k (w.getD 0 0))

/-- Folds one block into the chain value. -/
def compress (s : Chain) (block : List UInt32) : Chain :=
  let t := rounds roundConstants block s
  ⟨s.a + t.a, s.b + t.b, s.c + t.c, s.d + t.d, s.e + t.e, s.f + t.f, s.g + t.g, s.h + t.h⟩

/-- Up to four bytes as a word, most significant byte first. -/
def wordOf (bytes : Bytes) : UInt32 :=
  bytes.foldl (fun w b => (w <<< 8) ||| b.toUInt32) 0

/-- The sixteen words of a 64-byte block. -/
def blockOf (bytes : Bytes) : List UInt32 :=
  (List.range 16).map fun i => wordOf ((bytes.drop (4 * i)).take 4)

/-- The message with the filling that brings it to a whole number of blocks. -/
def padded (message : Bytes) : Bytes :=
  message ++ 0x80 :: List.replicate ((119 - message.length % 64) % 64) 0 ++
    Bytes.bigEndian 8 (8 * message.length)

/-- Absorbs a given number of blocks. -/
def absorb : (blocks : Nat) → Chain → Bytes → Chain
  | 0, s, _ => s
  | blocks + 1, s, rest => absorb blocks (compress s (blockOf (rest.take 64))) (rest.drop 64)

/-- The 32-byte digest of a message. -/
def hash (message : Bytes) : Bytes :=
  let text := padded message
  let s := absorb (text.length / 64) start text
  [s.a, s.b, s.c, s.d, s.e, s.f, s.g, s.h].flatMap fun w => Bytes.bigEndian 4 w.toNat

@[simp] theorem length_hash (message : Bytes) : (hash message).length = 32 := by
  simp [hash]

end ConsensusEnvelope.Sha256
