import ConsensusEnvelope.Axis
import ConsensusEnvelope.Secp256k1.Key

/-!
# Coordinates

A coordinate is a pair of axes, the identity under which a validator signs. It
is compared and shown as 64 bytes. Not every coordinate belongs to a key:
`publicKey?` finds the key if both axes are reduced and the point lies on the
curve, and `ofPublicKey` goes back.
-/

namespace ConsensusEnvelope

open Secp256k1

/-- The two axes of a public key, or of what claims to be one. -/
@[ext] structure Coordinate where
  x : Axis
  y : Axis
  deriving DecidableEq

namespace Coordinate

/-- The number of bytes of a coordinate. -/
def width : Nat := 64

/-- The bytes of the first axis, then those of the second. -/
def bytes (c : Coordinate) : Bytes :=
  c.x.bytes ++ c.y.bytes

/-- Reads exactly 64 bytes as a coordinate. -/
def ofBytes? (bytes : Bytes) : Option Coordinate :=
  if h : bytes.length = 64 then
    some ⟨⟨bytes.take 32, by simp [h]⟩, ⟨bytes.drop 32, by simp [h]⟩⟩
  else none

/-- Both axes are the given ones. -/
def Matches (c : Coordinate) (x y : Axis) : Prop :=
  c.x = x ∧ c.y = y

instance (c : Coordinate) (x y : Axis) : Decidable (c.Matches x y) :=
  inferInstanceAs (Decidable (_ ∧ _))

/-- The 128 hexadecimal digits of a coordinate. -/
def hex (c : Coordinate) : String :=
  Hex.encode c.bytes

/-- A coordinate with its type named, for diagnostic output. -/
def describe (c : Coordinate) : String :=
  "Coordinate(" ++ c.hex ++ ")"

/-- The public key with these coordinates, if there is one. -/
def publicKey? (c : Coordinate) : Option PublicKey :=
  PublicKey.ofCoordinates? c.x.value c.y.value

/-- The coordinate of a public key. -/
def ofPublicKey (key : PublicKey) : Except Abort Coordinate := do
  let x ← Axis.ofKeyComponent (Bytes.bigEndian 32 key.x)
  let y ← Axis.ofKeyComponent (Bytes.bigEndian 32 key.y)
  return ⟨x, y⟩

/-- The coordinate of the public key that belongs to a secret key. -/
def ofSecretKey (key : SecretKey) : Except Abort Coordinate :=
  match key.publicKey? with
  | some publicKey => ofPublicKey publicKey
  | none => .error .noAffineCoordinates

end Coordinate

end ConsensusEnvelope
