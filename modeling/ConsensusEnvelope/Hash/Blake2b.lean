import ConsensusEnvelope.Bytes.Basic

/-!
# BLAKE2b with a 256-bit output

The unkeyed hash of RFC 7693 with a digest of 32 bytes. The chain value is eight
64-bit words. A message is cut into blocks of 128 bytes; every block but the
last is full, the last one is filled up with zeros and flagged, and the empty
message is one block of zeros. Each compression also takes the number of message
bytes seen so far, which is what keeps the zero filling unambiguous.
-/

namespace ConsensusEnvelope.Blake2b

/-- The eight words that a chain value consists of. -/
abbrev Chain := Vector UInt64 8

/-- The fractional parts of the square roots of the first eight primes. -/
def initialWords : Chain :=
  #v[0x6a09e667f3bcc908, 0xbb67ae8584caa73b, 0x3c6ef372fe94f82b, 0xa54ff53a5f1d36f1,
    0x510e527fade682d1, 0x9b05688c2b3e6c1f, 0x1f83d9abfb41bd6b, 0x5be0cd19137e2179]

/-- The order in which each of the twelve rounds uses the sixteen words of a
block. -/
def schedule : List (Vector (Fin 16) 16) :=
  [#v[0, 1, 2, 3, 4, 5, 6, 7, 8, 9, 10, 11, 12, 13, 14, 15],
    #v[14, 10, 4, 8, 9, 15, 13, 6, 1, 12, 0, 2, 11, 7, 5, 3],
    #v[11, 8, 12, 0, 5, 2, 15, 13, 10, 14, 3, 6, 7, 1, 9, 4],
    #v[7, 9, 3, 1, 13, 12, 11, 14, 2, 6, 5, 10, 4, 0, 15, 8],
    #v[9, 0, 5, 7, 2, 4, 10, 15, 14, 1, 11, 12, 6, 8, 3, 13],
    #v[2, 12, 6, 10, 0, 11, 8, 3, 4, 13, 7, 5, 15, 14, 1, 9],
    #v[12, 5, 1, 15, 14, 13, 4, 10, 0, 7, 6, 3, 9, 2, 8, 11],
    #v[13, 11, 7, 14, 12, 1, 3, 9, 5, 0, 15, 4, 8, 6, 2, 10],
    #v[6, 15, 14, 9, 11, 3, 0, 8, 12, 2, 13, 7, 1, 4, 10, 5],
    #v[10, 2, 8, 4, 7, 6, 1, 5, 15, 11, 9, 14, 3, 12, 13, 0],
    #v[0, 1, 2, 3, 4, 5, 6, 7, 8, 9, 10, 11, 12, 13, 14, 15],
    #v[14, 10, 4, 8, 9, 15, 13, 6, 1, 12, 0, 2, 11, 7, 5, 3]]

/-- A word turned to the right by `n` bits, for `0 < n < 64`. -/
def rotateRight (w n : UInt64) : UInt64 :=
  (w >>> n) ||| (w <<< (64 - n))

/-- Mixes two message words into four words of the working vector. -/
def mix (v : Vector UInt64 16) (a b c d : Fin 16) (x y : UInt64) : Vector UInt64 16 :=
  let va := v[a] + v[b] + x
  let vd := rotateRight (v[d] ^^^ va) 32
  let vc := v[c] + vd
  let vb := rotateRight (v[b] ^^^ vc) 24
  let va := va + vb + y
  let vd := rotateRight (vd ^^^ va) 16
  let vc := vc + vd
  let vb := rotateRight (vb ^^^ vc) 63
  (((v.set a va).set b vb).set c vc).set d vd

/-- One round: the four columns of the working vector, then its four
diagonals. -/
def round (block : Vector UInt64 16) (v : Vector UInt64 16) (order : Vector (Fin 16) 16) :
    Vector UInt64 16 :=
  let v := mix v 0 4 8 12 block[order[0]] block[order[1]]
  let v := mix v 1 5 9 13 block[order[2]] block[order[3]]
  let v := mix v 2 6 10 14 block[order[4]] block[order[5]]
  let v := mix v 3 7 11 15 block[order[6]] block[order[7]]
  let v := mix v 0 5 10 15 block[order[8]] block[order[9]]
  let v := mix v 1 6 11 12 block[order[10]] block[order[11]]
  let v := mix v 2 7 8 13 block[order[12]] block[order[13]]
  mix v 3 4 9 14 block[order[14]] block[order[15]]

/-- Folds one block into the chain value. `count` is the number of message bytes
up to the end of the block, and `last` marks the block that ends the message. -/
def compress (chain : Chain) (block : Vector UInt64 16) (count : Nat) (last : Bool) : Chain :=
  let v : Vector UInt64 16 := chain ++ initialWords
  let v := v.set 12 (v[12] ^^^ UInt64.ofNat count)
  let v := v.set 13 (v[13] ^^^ UInt64.ofNat (count / UInt64.size))
  let v := if last then v.set 14 (v[14] ^^^ 0xffffffffffffffff) else v
  let v := schedule.foldl (round block) v
  Vector.ofFn fun i => chain[i] ^^^ v[i.val] ^^^ v[i.val + 8]

/-- Up to eight bytes as a word, least significant byte first. -/
def wordOf (bytes : Bytes) : UInt64 :=
  bytes.foldr (fun b w => (w <<< 8) ||| b.toUInt64) 0

/-- At most 128 bytes as the sixteen words of a block; missing bytes count as
zeros. -/
def blockOf (bytes : Bytes) : Vector UInt64 16 :=
  Vector.ofFn fun i => wordOf ((bytes.drop (8 * i.val)).take 8)

/-- Absorbs `full` blocks that are followed by more bytes, then the block that
ends the message. `count` is the number of bytes absorbed before. -/
def absorb : (full : Nat) → Chain → (count : Nat) → Bytes → Chain
  | 0, chain, count, rest => compress chain (blockOf rest) (count + rest.length) true
  | full + 1, chain, count, rest =>
    absorb full (compress chain (blockOf (rest.take 128)) (count + 128) false) (count + 128)
      (rest.drop 128)

/-- The chain value before the first block: its first word also holds the
parameters, which are an output of 32 bytes, no key, and a fan-out and depth of
one. -/
def start : Chain :=
  initialWords.set 0 (initialWords[0] ^^^ 0x01010020)

/-- The 32-byte digest of a message. -/
def hash (message : Bytes) : Bytes :=
  let chain := absorb ((message.length - 1) / 128) start 0 message
  [chain[0], chain[1], chain[2], chain[3]].flatMap fun w => Bytes.littleEndian 8 w.toNat

@[simp] theorem length_hash (message : Bytes) : (hash message).length = 32 := by
  simp [hash]

end ConsensusEnvelope.Blake2b
