import ConsensusEnvelope.Secp256k1.Modular

/-!
# The curve secp256k1

The curve is `y² = x³ + 7` over the integers modulo `fieldPrime`. A point is the
identity or a pair of affine coordinates, both below the prime. Two points are
added along the line through them, or along the tangent where they coincide;
opposite points add up to the identity.

The base point generates a group with the prime number `order` of elements.
-/

namespace ConsensusEnvelope.Secp256k1

/-- The prime that coordinates are reduced by. -/
def fieldPrime : Nat := 0xfffffffffffffffffffffffffffffffffffffffffffffffffffffffefffffc2f

/-- The number of points in the group that the base point generates, a prime as
well. -/
def order : Nat := 0xfffffffffffffffffffffffffffffffebaaedce6af48a03bbfd25e8cd0364141

/-- A point of the curve: the identity, or a pair of affine coordinates. -/
inductive Point where
  | infinity
  | affine (x y : Nat)
  deriving DecidableEq

/-- The equation of the curve. -/
def OnCurve (x y : Nat) : Prop :=
  y * y % fieldPrime = (x * x * x + 7) % fieldPrime

instance (x y : Nat) : Decidable (OnCurve x y) :=
  inferInstanceAs (Decidable (_ = _))

namespace Point

/-- The base point. -/
def base : Point :=
  .affine 0x79be667ef9dcbbac55a06295ce870b07029bfcdb2dce28d959f2815b16f81798
    0x483ada7726a3c4655da4fbfc0e1108a8fd17b448a68554199c47d08ffb10d4b8

/-- The point opposite to the third intersection of the curve with the line of a
given slope through `(x₁, y₁)`, where `x₂` is the first coordinate of the second
intersection. -/
def third (slope x₁ y₁ x₂ : Nat) : Point :=
  let x := subMod fieldPrime (subMod fieldPrime (slope * slope) x₁) x₂
  .affine x (subMod fieldPrime (slope * subMod fieldPrime x₁ x) y₁)

/-- The slope of the line through two points with different first
coordinates. -/
def chord (x₁ y₁ x₂ y₂ : Nat) : Nat :=
  subMod fieldPrime y₂ y₁ * inverse fieldPrime (subMod fieldPrime x₂ x₁) % fieldPrime

/-- The slope of the tangent at a point that is not its own opposite. -/
def tangent (x y : Nat) : Nat :=
  3 * x * x * inverse fieldPrime (2 * y % fieldPrime) % fieldPrime

/-- The sum of two points. -/
def add : Point → Point → Point
  | .infinity, q => q
  | p, .infinity => p
  | .affine x₁ y₁, .affine x₂ y₂ =>
    if x₁ = x₂ then
      if (y₁ + y₂) % fieldPrime = 0 then .infinity
      else third (tangent x₁ y₁) x₁ y₁ x₁
    else third (chord x₁ y₁ x₂ y₂) x₁ y₁ x₂

end Point

end ConsensusEnvelope.Secp256k1
