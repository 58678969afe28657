import ConsensusEnvelope.Hash.Hmac
import ConsensusEnvelope.Secp256k1.Key

/-!
# ECDSA signatures

A signature is a pair of scalars in `1 … order - 1`. For a digest with the
integer `z`, the signer picks a nonce `k`, takes `r` from the first coordinate
of `k · base` and solves `k · s = z + r · d`; the verifier checks that
`(z / s) · base + (r / s) · key` has the first coordinate `r` again.

With `(r, s)` the pair `(r, order - s)` satisfies the same equation. Of the two
the one with the smaller `s` is canonical: signing produces it, `normalize`
finds it, and `verifies` accepts no other.

The nonce is drawn from the generator of RFC 6979, seeded with the secret
scalar, the digest and additional entropy, until it falls into `1 … order - 1`.
-/

namespace ConsensusEnvelope.Secp256k1

/-- A pair of signature scalars in range. -/
@[ext] structure Signature where
  r : Nat
  s : Nat
  r_pos : 0 < r
  r_lt : r < order
  s_pos : 0 < s
  s_lt : s < order
  deriving DecidableEq

namespace Signature

/-- The signature with the given scalars, if both are in range. -/
def ofScalars? (r s : Nat) : Option Signature :=
  if h : 0 < r ∧ r < order ∧ 0 < s ∧ s < order then
    some { r, s, r_pos := h.1, r_lt := h.2.1, s_pos := h.2.2.1, s_lt := h.2.2.2 }
  else none

/-- The signature with the scalars that two big-endian byte strings stand for,
if both are in range. Leading zeros do not matter. -/
def ofBytes? (r s : Bytes) : Option Signature := do
  let r ← r.fit? 32
  let s ← s.fit? 32
  ofScalars? r.value s.value

/-- The second scalar lies in the lower half of its range. -/
def IsLow (sig : Signature) : Prop :=
  sig.s ≤ order / 2

instance (sig : Signature) : Decidable sig.IsLow :=
  inferInstanceAs (Decidable (_ ≤ _))

/-- The signature with `order - s` in place of `s`. -/
def flip (sig : Signature) : Signature where
  r := sig.r
  s := order - sig.s
  r_pos := sig.r_pos
  r_lt := sig.r_lt
  s_pos := Nat.sub_pos_of_lt sig.s_lt
  s_lt := Nat.sub_lt (Nat.lt_trans sig.s_pos sig.s_lt) sig.s_pos

/-- The one of a signature and its flipped form that is low. -/
def normalize (sig : Signature) : Signature :=
  if sig.IsLow then sig else sig.flip

end Signature

/-- The integer that a digest stands for in the signature equations. -/
def digestScalar (digest : Bytes) : Nat :=
  digest.value % order

/-- The point `(z / s) · base + (r / s) · key` that the verifier computes. -/
def PublicKey.checkPoint (key : PublicKey) (digest : Bytes) (r s : Nat) : Point :=
  let inv := inverse order s
  Point.add (Point.mul (digestScalar digest * inv % order) Point.base)
    (Point.mul (r * inv % order) key.point)

/-- The point is not the identity, and its first coordinate is congruent to
`r`. -/
def Point.HasScalar (r : Nat) : Point → Prop
  | .infinity => False
  | .affine x _ => x % order = r

instance (r : Nat) : (p : Point) → Decidable (p.HasScalar r)
  | .infinity => inferInstanceAs (Decidable False)
  | .affine x _ => inferInstanceAs (Decidable (x % order = r))

/-- Whether a signature of a digest is valid under a public key. High signatures
are not. -/
def PublicKey.verifies (key : PublicKey) (digest : Bytes) (sig : Signature) : Bool :=
  decide (sig.IsLow ∧ (key.checkPoint digest sig.r sig.s).HasScalar sig.r)

/-- The first draw of a generator that lies in `1 … order - 1`, among a bounded
number of draws. -/
def drawScalar? : (draws : Nat) → Generator → Option Nat
  | 0, _ => none
  | draws + 1, g =>
    let (bytes, g) := g.draw
    if 0 < bytes.value ∧ bytes.value < order then some bytes.value else drawScalar? draws g

/-- The nonce for a digest. A draw is out of range about once in `2 ^ 127`
times, so the bound of 128 draws is not reached. -/
def SecretKey.nonce? (key : SecretKey) (digest entropy : Bytes) : Option Nat :=
  drawScalar? 128 (Generator.seed (key.toBytes ++ digest ++ entropy))

/-- The signature that a nonce gives, unless one of its scalars comes out as
zero. -/
def SecretKey.signWith? (key : SecretKey) (digest : Bytes) (nonce : Nat) : Option Signature :=
  match Point.mul nonce Point.base with
  | .infinity => none
  | .affine x _ =>
    let r := x % order
    let s := inverse order nonce * (digestScalar digest + r * key.scalar) % order
    (Signature.ofScalars? r s).map Signature.normalize

/-- Signs a digest of 32 bytes, with 32 bytes of additional entropy. -/
def SecretKey.sign? (key : SecretKey) (digest entropy : Bytes) : Option Signature :=
  (key.nonce? digest entropy).bind (key.signWith? digest)

end ConsensusEnvelope.Secp256k1
