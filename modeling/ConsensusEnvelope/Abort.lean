/-!
# Failures that are nobody's input

Input from a peer is refused with an error. Three conditions are of another
kind: they cannot come from a peer at all, only from a caller that holds a key
of a foreign curve or hashes a payload whose length no envelope can state. An
operation that meets one of them stops with an `Abort`, so that the absence of
aborts on the receiving side can be stated and proved.
-/

namespace ConsensusEnvelope

/-- A byte string too long for an axis, by its length. -/
structure AxisTooLong where
  length : Nat
  deriving DecidableEq, Repr

/-- The refusal in words. -/
def AxisTooLong.message (fault : AxisTooLong) : String :=
  s!"Invalid axis length: {fault.length} bytes exceeds 32"

/-- A condition that no input of a peer brings about. -/
inductive Abort where
  /-- A component of a key that this process holds is wider than an axis. -/
  | foreignKey (cause : AxisTooLong)
  /-- A key that this process holds has no affine coordinates. -/
  | noAffineCoordinates
  /-- A payload to be hashed is longer than its length field can state. -/
  | lengthField (length : Nat)
  deriving DecidableEq, Repr

/-- The condition in words. -/
def Abort.message : Abort → String
  | .foreignKey cause => "local public key is not a secp256k1 key: " ++ cause.message
  | .noAffineCoordinates => "uncompressed public key is missing an affine coordinate"
  | .lengthField length => s!"payload of {length} bytes exceeds the 32-bit length field"

end ConsensusEnvelope
