import ConsensusEnvelope.Secp256k1.Point

/-!
# Multiples of a point

An affine sum costs a modular inverse. Jacobian coordinates put it off: the
triple `(x, y, z)` stands for the affine point `(x / z², y / z³)`, and for the
identity when `z = 0`. Doubling and adding such triples takes products only, so
a multiple of a point, by doubling and adding along the binary digits of the
factor, takes one inverse at the end.
-/

namespace ConsensusEnvelope.Secp256k1

/-- A point of the curve as a triple of reduced residues. -/
structure Jacobian where
  x : Nat
  y : Nat
  z : Nat

namespace Jacobian

/-- The triple that stands for the identity. -/
def identity : Jacobian :=
  ⟨1, 1, 0⟩

/-- The triple of a point, with denominator one. -/
def ofPoint : Point → Jacobian
  | .infinity => identity
  | .affine x y => ⟨x, y, 1⟩

/-- The point that a triple stands for. -/
def toPoint (p : Jacobian) : Point :=
  if p.z = 0 then .infinity
  else
    let inv := inverse fieldPrime p.z
    let inv₂ := inv * inv % fieldPrime
    .affine (p.x * inv₂ % fieldPrime) (p.y * (inv₂ * inv % fieldPrime) % fieldPrime)

/-- Twice a point. A point that is its own opposite has `y = 0` and gets
`z = 0`, as it should. -/
def double (p : Jacobian) : Jacobian :=
  let square := p.y * p.y % fieldPrime
  let s := 4 * p.x * square % fieldPrime
  let m := 3 * p.x * p.x % fieldPrime
  let x := subMod fieldPrime (subMod fieldPrime (m * m) s) s
  let y := subMod fieldPrime (m * subMod fieldPrime s x) (8 * square * square % fieldPrime)
  ⟨x, y, 2 * p.y * p.z % fieldPrime⟩

/-- The sum of two points. Both are brought to a common denominator first. -/
def add (p q : Jacobian) : Jacobian :=
  if p.z = 0 then q
  else if q.z = 0 then p
  else
    let pz₂ := p.z * p.z % fieldPrime
    let qz₂ := q.z * q.z % fieldPrime
    let px := p.x * qz₂ % fieldPrime
    let qx := q.x * pz₂ % fieldPrime
    let py := p.y * (qz₂ * q.z % fieldPrime) % fieldPrime
    let qy := q.y * (pz₂ * p.z % fieldPrime) % fieldPrime
    if px = qx then
      if py = qy then double p else identity
    else
      let h := subMod fieldPrime qx px
      let r := subMod fieldPrime qy py
      let h₂ := h * h % fieldPrime
      let h₃ := h₂ * h % fieldPrime
      let v := px * h₂ % fieldPrime
      let x := subMod fieldPrime (subMod fieldPrime (subMod fieldPrime (r * r) h₃) v) v
      let y := subMod fieldPrime (r * subMod fieldPrime v x) (py * h₃ % fieldPrime)
      ⟨x, y, p.z * q.z % fieldPrime * h % fieldPrime⟩

/-- The sum of `k` copies of a point, for `k` below `2 ^ bits`. -/
def mul : (bits k : Nat) → Jacobian → Jacobian
  | 0, _, _ => identity
  | bits + 1, k, p =>
    let rest := mul bits (k / 2) (double p)
    if k % 2 = 1 then add p rest else rest

end Jacobian

/-- The sum of `k` copies of a point, for `k` below `2 ^ 256`. -/
def Point.mul (k : Nat) (p : Point) : Point :=
  (Jacobian.mul 256 k (Jacobian.ofPoint p)).toPoint

end ConsensusEnvelope.Secp256k1
