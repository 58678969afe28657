import ConsensusEnvelope.Bytes.Basic

/-!
# Options of binary forms

A binary form leaves three things open: which byte of a number comes first, whether a number
takes up the bytes of its type or only those that it needs, and what becomes of bytes behind a
value. Unless something else is asked for, the least significant byte comes first, numbers
take up the bytes that they need, and bytes behind a value are refused.

Whoever writes and whoever reads have to agree on these choices. Nothing in the bytes tells
which they were.
-/

namespace ConsensusEnvelope.Binary

/-- Which byte of a number comes first: the least or the most significant one. -/
inductive ByteOrder where
  | little
  | big
  deriving DecidableEq

namespace ByteOrder

/-- The low bytes of a number in this order. -/
def bytes : ByteOrder → (width n : Nat) → Bytes
  | .little => Bytes.littleEndian
  | .big => Bytes.bigEndian

/-- The number that bytes in this order denote. -/
def value : ByteOrder → Bytes → Nat
  | .little => Bytes.littleValue
  | .big => Bytes.value

end ByteOrder

/-- How many bytes a number takes up: those of its type, or those that it needs. -/
inductive NumberForm where
  | fixed
  | varying
  deriving DecidableEq

/-- What becomes of bytes behind a value. -/
inductive Trailing where
  | refused
  | ignored
  deriving DecidableEq

/-- The choices that a binary form leaves open. -/
@[ext] structure Options where
  order : ByteOrder
  numbers : NumberForm
  trailing : Trailing
  deriving DecidableEq

namespace Options

/-- The choices that hold where no other is made. -/
def default : Options where
  order := .little
  numbers := .varying
  trailing := .refused

/-- The same choices, but numbers take up the bytes of their type. -/
def withFixedNumbers (o : Options) : Options :=
  { o with numbers := .fixed }

/-- The same choices, but the least significant byte of a number comes first. -/
def withLittleEndian (o : Options) : Options :=
  { o with order := .little }

end Options

end ConsensusEnvelope.Binary
