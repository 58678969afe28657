import ConsensusEnvelope.Bytes.Basic
import ConsensusEnvelope.Secp256k1.Jacobian

/-!
# Keys

A secret key is a scalar between one and the order of the group, a public key an
affine point of the curve. Both carry their defining condition in the type, so a
key that exists is a valid key, and what can fail is only the reading of one.
-/

namespace ConsensusEnvelope.Secp256k1

/-- A secret scalar. -/
structure SecretKey where
  scalar : Nat
  pos : 0 < scalar
  lt_order : scalar < order

/-- A point of the curve other than the identity, in canonical coordinates. -/
@[ext] structure PublicKey where
  x : Nat
  y : Nat
  x_lt : x < fieldPrime
  y_lt : y < fieldPrime
  onCurve : OnCurve x y
  deriving DecidableEq

namespace PublicKey

/-- The public key with the given coordinates, if they are reduced and satisfy
the equation. -/
def ofCoordinates? (x y : Nat) : Option PublicKey :=
  if h : x < fieldPrime ∧ y < fieldPrime ∧ OnCurve x y then
    some { x, y, x_lt := h.1, y_lt := h.2.1, onCurve := h.2.2 }
  else none

/-- The public key that a point stands for; the identity stands for none. -/
def ofPoint? : Point → Option PublicKey
  | .infinity => none
  | .affine x y => ofCoordinates? x y

/-- The point of a public key. -/
def point (key : PublicKey) : Point :=
  .affine key.x key.y

/-- The short form of 33 bytes: the parity of the second coordinate, then the
first coordinate. -/
def compressed (key : PublicKey) : Bytes :=
  (if key.y % 2 = 0 then 2 else 3) :: Bytes.bigEndian 32 key.x

end PublicKey

namespace SecretKey

/-- Reads a secret key from 24 to 32 big-endian bytes; shorter ones stand for
their value. -/
def ofBytes? (bytes : Bytes) : Option SecretKey :=
  if 24 ≤ bytes.length ∧ bytes.length ≤ 32 then
    if h : 0 < bytes.value ∧ bytes.value < order then
      some { scalar := bytes.value, pos := h.1, lt_order := h.2 }
    else none
  else none

/-- The secret key that random bytes pick; enough bytes make all keys equally
likely. -/
def ofEntropy (bytes : Bytes) : SecretKey where
  scalar := bytes.value % (order - 1) + 1
  pos := Nat.succ_pos _
  lt_order := by
    have h : bytes.value % (order - 1) < order - 1 := Nat.mod_lt _ (by decide)
    have : 0 < order := by decide
    omega

/-- The 32 bytes of a secret key. -/
def toBytes (key : SecretKey) : Bytes :=
  Bytes.bigEndian 32 key.scalar

/-- The multiple of the base point that belongs to a secret key. -/
def publicPoint (key : SecretKey) : Point :=
  Point.mul key.scalar Point.base

/-- The public key of a secret key. -/
def publicKey? (key : SecretKey) : Option PublicKey :=
  PublicKey.ofPoint? key.publicPoint

end SecretKey

end ConsensusEnvelope.Secp256k1
