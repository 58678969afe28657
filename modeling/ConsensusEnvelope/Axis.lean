import ConsensusEnvelope.Abort
import ConsensusEnvelope.Bytes.Hex

/-!
# Axes

An axis is one affine coordinate of a public key, stored as exactly 32 bytes,
most significant byte first. It need not be reduced or belong to any point: an
axis received from a peer is only a number below `2 ^ 256`.

Shorter byte strings are accepted and stand for their value; longer ones are
refused even when the bytes too many are zeros. Because all axes have the same
width, comparing them byte by byte compares the numbers.
-/

namespace ConsensusEnvelope

/-- A 256-bit number as 32 big-endian bytes. -/
@[ext] structure Axis where
  bytes : Bytes
  length_bytes : bytes.length = 32
  deriving DecidableEq

namespace Axis

/-- The number of bytes of an axis. -/
def width : Nat := 32

/-- The axis of the number zero. -/
def zero : Axis :=
  ⟨List.replicate 32 0, by decide⟩

/-- Reads at most 32 bytes as an axis; missing ones are zeros in front. -/
def decode (bytes : Bytes) : Except AxisTooLong Axis :=
  if h : bytes.length ≤ 32 then
    .ok ⟨bytes.leftpad 32 0, by rw [List.length_leftpad]; omega⟩
  else .error ⟨bytes.length⟩

/-- Reads a component of a key that this process holds. Such a component always
fits. -/
def ofKeyComponent (bytes : Bytes) : Except Abort Axis :=
  (decode bytes).mapError .foreignKey

/-- The number that an axis stands for. -/
def value (axis : Axis) : Nat :=
  axis.bytes.value

/-- Axes in the order of their bytes. -/
instance : Ord Axis where
  compare a b := compare a.bytes b.bytes

/-- The 64 hexadecimal digits of an axis. -/
def hex (axis : Axis) : String :=
  Hex.encode axis.bytes

/-- An axis with its type named, for diagnostic output. -/
def describe (axis : Axis) : String :=
  "Axis(" ++ axis.hex ++ ")"

/-- The bytes of an axis that arrive one at a time: the first 32 of them, last
one first, and how many there have been. -/
structure Intake where
  kept : Bytes
  seen : Nat

namespace Intake

/-- No bytes have arrived. -/
def empty : Intake :=
  ⟨[], 0⟩

/-- One more byte arrives. It is kept only if it still fits. -/
def push (intake : Intake) (b : UInt8) : Intake :=
  ⟨if intake.seen < 32 then b :: intake.kept else intake.kept, intake.seen + 1⟩

/-- The axis of all bytes that have arrived, unless there were too many. -/
def finish (intake : Intake) : Except AxisTooLong Axis :=
  if 32 < intake.seen then .error ⟨intake.seen⟩ else decode intake.kept.reverse

end Intake

end Axis

end ConsensusEnvelope
