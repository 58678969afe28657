/-!
# Byte strings

A byte string is a list of bytes, so that lemmas about it are lemmas about
lists. It is read as an unsigned integer in two ways: most significant byte
first, as keys and signature scalars are stored (`value`, `bigEndian`), and
least significant byte first, as lengths and counters are stored (`littleValue`,
`littleEndian`).

Leading zero bytes do not change the big-endian value; `minimal` removes all of
them, and core's `List.leftpad` puts them back up to a fixed width, which `fit?`
does for every value that has room.
-/

namespace ConsensusEnvelope

/-- A byte string, first byte first. -/
abbrev Bytes := List UInt8

namespace Bytes

/-- The unsigned integer that a byte string denotes, most significant byte
first. -/
def value (bytes : Bytes) : Nat :=
  bytes.foldl (fun n b => 256 * n + b.toNat) 0

/-- The unsigned integer that a byte string denotes, least significant byte
first. -/
def littleValue : Bytes → Nat
  | [] => 0
  | b :: rest => b.toNat + 256 * littleValue rest

/-- The low `width` bytes of `n`, least significant byte first. -/
def littleEndian : (width n : Nat) → Bytes
  | 0, _ => []
  | width + 1, n => UInt8.ofNat n :: littleEndian width (n / 256)

/-- The low `width` bytes of `n`, most significant byte first. -/
def bigEndian (width n : Nat) : Bytes :=
  (littleEndian width n).reverse

/-- The byte string without its leading zero bytes: the shortest one of the same
value. -/
def minimal (bytes : Bytes) : Bytes :=
  bytes.dropWhile (· == 0)

/-- A byte string brought to a given width by removing or adding leading zeros,
if its value fits. -/
def fit? (width : Nat) (bytes : Bytes) : Option Bytes :=
  let significant := bytes.minimal
  if significant.length ≤ width then some (significant.leftpad width 0) else none

@[simp] theorem length_littleEndian (width n : Nat) : (littleEndian width n).length = width := by
  induction width generalizing n with
  | zero => rfl
  | succ width ih => simp [littleEndian, ih]

@[simp] theorem length_bigEndian (width n : Nat) : (bigEndian width n).length = width := by
  simp [bigEndian]

end Bytes

end ConsensusEnvelope
