import ConsensusEnvelope.Proofs.Secp256k1.Order
import ConsensusEnvelope.Secp256k1.Signature

/-!
# The signature equation

For a public key `Q` and a digest with the integer `z`, a pair of scalars
`(r, s)` is a signature if the point `(z / s) · base + (r / s) · Q` is not the
identity and its first coordinate is congruent to `r` modulo the order. This is
said here in the group of the curve and with scalars modulo the order, without
reference to how a verifier computes.

The verifier of this library decides the equation for a low `s` and refuses a
high one. That loses nothing, because negating `s` negates the point, and
opposite points have one first coordinate: of `s` and `order - s` one is low, and
the equation holds for both or for neither.
-/

namespace ConsensusEnvelope.Secp256k1

theorem order_lt : order < 2 ^ 256 := by decide

theorem natCast_inverse_order (a : Nat) :
    ((inverse order a : Nat) : ZMod order) = (a : ZMod order)⁻¹ :=
  natCast_inverse order_lt (by decide) a

theorem mod_order_lt (a : Nat) : a % order < 2 ^ 256 :=
  (Nat.mod_lt a prime_order.pos).trans order_lt

theorem natCast_order_ne_zero {a : Nat} (hpos : 0 < a) (hlt : a < order) :
    (a : ZMod order) ≠ 0 := by
  rw [Ne, ZMod.natCast_eq_zero_iff]
  exact Nat.not_dvd_of_pos_of_lt hpos hlt

/-! ## Keys -/

namespace PublicKey

/-- The element of the group that a public key stands for. -/
def element (key : PublicKey) : curve.Point :=
  .some key.x key.y (onCurve_iff.mp key.onCurve)

theorem denotes_point (key : PublicKey) : key.point.Denotes key.element :=
  .affine key.x_lt key.y_lt _

theorem ofCoordinates?_eq_some_iff {x y : Nat} {key : PublicKey} :
    ofCoordinates? x y = some key ↔ key.x = x ∧ key.y = y := by
  rw [ofCoordinates?]
  split
  · rw [Option.some_inj, PublicKey.ext_iff, eq_comm, eq_comm (a := y)]
  · next h =>
      refine ⟨nofun, ?_⟩
      rintro ⟨rfl, rfl⟩
      exact absurd ⟨key.x_lt, key.y_lt, key.onCurve⟩ h

end PublicKey

/-! ## Signature scalars -/

namespace Signature

theorem ofScalars?_eq_some_iff {r s : Nat} {sig : Signature} :
    ofScalars? r s = some sig ↔ sig.r = r ∧ sig.s = s := by
  rw [ofScalars?]
  split
  · rw [Option.some_inj, Signature.ext_iff, eq_comm, eq_comm (a := s)]
  · next h =>
      refine ⟨nofun, ?_⟩
      rintro ⟨rfl, rfl⟩
      exact absurd ⟨sig.r_pos, sig.r_lt, sig.s_pos, sig.s_lt⟩ h

theorem isLow_normalize (sig : Signature) : sig.normalize.IsLow := by
  rw [normalize]
  split
  · next h => exact h
  · next h =>
      rw [IsLow] at h
      show order - sig.s ≤ order / 2
      omega

theorem normalize_eq_or (sig : Signature) :
    sig.normalize = sig ∨ sig.normalize = sig.flip := by
  rw [normalize]
  split
  · exact .inl rfl
  · exact .inr rfl

theorem normalize_of_isLow {sig : Signature} (h : sig.IsLow) : sig.normalize = sig :=
  if_pos h

theorem natCast_s_flip (sig : Signature) : (sig.flip.s : ZMod order) = -sig.s := by
  rw [flip, Nat.cast_sub sig.s_lt.le, ZMod.natCast_self, zero_sub]

end Signature

/-! ## The equation -/

/-- The element is not the identity, and its first coordinate, taken as an
integer below `fieldPrime`, is congruent to `r` modulo `order`. -/
def HasResidue (P : curve.Point) (r : ZMod order) : Prop :=
  ∃ x y h, P = .some x y h ∧ (x.val : ZMod order) = r

/-- The equation by which `(r, s)` is a signature of `z` under `Q`. -/
def SatisfiesEquation (Q : curve.Point) (z r s : ZMod order) : Prop :=
  HasResidue ((z / s) • generator + (r / s) • Q) r

theorem hasResidue_neg {P : curve.Point} {r : ZMod order} :
    HasResidue (-P) r ↔ HasResidue P r := by
  have hneg : ∀ {P : curve.Point}, HasResidue P r → HasResidue (-P) r := by
    rintro P ⟨x, y, h, rfl, hx⟩
    exact ⟨x, _, _, WeierstrassCurve.Affine.Point.neg_some h, hx⟩
  refine ⟨fun h => ?_, hneg⟩
  rw [← neg_neg P]
  exact hneg h

theorem satisfiesEquation_neg {Q : curve.Point} {z r s : ZMod order} :
    SatisfiesEquation Q z r (-s) ↔ SatisfiesEquation Q z r s := by
  rw [SatisfiesEquation, div_neg, div_neg, neg_smul, neg_smul, ← neg_add, hasResidue_neg]
  rfl

/-! ## The verifier -/

theorem Point.Denotes.hasScalar_iff {p : Point} {P : curve.Point} {r : Nat}
    (hp : p.Denotes P) (hr : r < order) : p.HasScalar r ↔ HasResidue P r := by
  cases hp with
  | infinity =>
      refine ⟨False.elim, ?_⟩
      rintro ⟨x, y, h, hzero, -⟩
      exact WeierstrassCurve.Affine.Point.some_ne_zero h hzero.symm
  | @affine x y hx hy h =>
      have hresidue : x % order = r ↔ (((x : ZMod fieldPrime).val : Nat) : ZMod order) = r := by
        rw [ZMod.val_natCast_of_lt hx, ZMod.natCast_eq_natCast_iff', Nat.mod_eq_of_lt hr]
      refine hresidue.trans ⟨fun hx => ⟨_, _, h, rfl, hx⟩, ?_⟩
      rintro ⟨x', y', h', heq, hx'⟩
      injection heq with hX
      rw [hX]
      exact hx'

namespace PublicKey

variable (key : PublicKey) (digest : Bytes)

/-- The verifier computes the point of the equation. -/
theorem denotes_checkPoint (r s : Nat) :
    (key.checkPoint digest r s).Denotes
      (((digest.value : ZMod order) / s) • generator +
        ((r : ZMod order) / s) • key.element) := by
  have hfactor : ∀ (a : Nat) (P : curve.Point),
      (a * inverse order s % order) • P = ((a : ZMod order) / s) • P := by
    intro a P
    rw [← Nat.cast_smul_eq_nsmul (ZMod order), ZMod.natCast_mod, Nat.cast_mul,
      natCast_inverse_order, div_eq_mul_inv]
  have hsum := (denotes_base.mul (mod_order_lt (digestScalar digest * inverse order s))).add
    (key.denotes_point.mul (mod_order_lt (r * inverse order s)))
  rw [hfactor, hfactor, digestScalar, ZMod.natCast_mod] at hsum
  exact hsum

theorem verifies_iff (sig : Signature) :
    key.verifies digest sig = true ↔
      sig.IsLow ∧ SatisfiesEquation key.element digest.value sig.r sig.s := by
  rw [verifies, decide_eq_true_iff,
    (key.denotes_checkPoint digest sig.r sig.s).hasScalar_iff sig.r_lt]
  rfl

/-- A signature need not be low to be accepted in its normal form. -/
theorem verifies_normalize_iff (sig : Signature) :
    key.verifies digest sig.normalize = true ↔
      SatisfiesEquation key.element digest.value sig.r sig.s := by
  rw [verifies_iff, and_iff_right sig.isLow_normalize]
  rcases sig.normalize_eq_or with h | h <;> rw [h]
  rw [sig.natCast_s_flip]
  exact satisfiesEquation_neg

end PublicKey

end ConsensusEnvelope.Secp256k1
