import ConsensusEnvelope.Proofs.Secp256k1.Prime
import ConsensusEnvelope.Secp256k1.Jacobian
import Mathlib.AlgebraicGeometry.EllipticCurve.Affine.Point

/-!
# Points as group elements

The points of an elliptic curve over a field form a group, which the library
constructs for every Weierstrass curve. A point given by two reduced coordinates
denotes an element of that group when it satisfies the equation, and so does a
Jacobian triple whose quotients do. Denotation is what every operation is
checked against: sums denote sums, whichever branch computed them, and a
multiple by doubling and adding denotes the multiple.

The branches of an addition match those of the group law. Where the first
coordinates agree, two points of the curve are equal or opposite, so the tangent
is taken at one point only; where they differ, the line through them has the
slope that the group law uses.
-/

namespace ConsensusEnvelope.Secp256k1

/-- The curve over the field with `fieldPrime` elements. -/
def curve : WeierstrassCurve.Affine (ZMod fieldPrime) where
  a₁ := 0
  a₂ := 0
  a₃ := 0
  a₄ := 0
  a₆ := 7

namespace curve

open WeierstrassCurve.Affine

variable {x y x₁ y₁ x₂ y₂ : ZMod fieldPrime}

theorem equation_iff : curve.Equation x y ↔ y * y = x * x * x + 7 := by
  rw [WeierstrassCurve.Affine.equation_iff]
  simp only [curve]
  ring_nf

theorem nonsingular_iff : curve.Nonsingular x y ↔ y * y = x * x * x + 7 := by
  have hdisc : curve.Δ ≠ 0 := by decide +kernel
  rw [← equation_iff_nonsingular_of_Δ_ne_zero hdisc, equation_iff]

theorem negY_eq : curve.negY x y = -y := by
  simp [curve]

theorem two_ne_zero : (2 : ZMod fieldPrime) ≠ 0 := by decide +kernel

theorem eq_negY_self_iff : y = curve.negY x y ↔ y = 0 := by
  rw [negY_eq, eq_neg_iff_add_eq_zero, ← two_mul, mul_eq_zero]
  exact or_iff_right two_ne_zero

/-! The coordinates of a sum and the slope of a tangent, for the coefficients of
this curve. -/

theorem addX_eq (ℓ : ZMod fieldPrime) : curve.addX x₁ x₂ ℓ = ℓ ^ 2 - x₁ - x₂ := by
  simp [curve]

theorem addY_eq (ℓ : ZMod fieldPrime) :
    curve.addY x₁ x₂ y₁ ℓ = ℓ * (x₁ - (ℓ ^ 2 - x₁ - x₂)) - y₁ := by
  rw [addY, negAddY, negY_eq, addX_eq]
  ring

theorem slope_self (hy : y ≠ 0) : curve.slope x x y y = 3 * x ^ 2 / (2 * y) := by
  rw [slope_of_Y_ne rfl (eq_negY_self_iff.not.mpr hy), negY_eq]
  simp [curve, two_mul]

end curve

/-! ## Residues of the field -/

theorem mod_le (a : Nat) : a % fieldPrime ≤ fieldPrime :=
  (Nat.mod_lt a prime_fieldPrime.pos).le

theorem subMod_lt (a b : Nat) : subMod fieldPrime a b < fieldPrime :=
  Nat.mod_lt _ prime_fieldPrime.pos

theorem subMod_le (a b : Nat) : subMod fieldPrime a b ≤ fieldPrime :=
  (subMod_lt a b).le

theorem natCast_inverse_fieldPrime (a : Nat) :
    ((inverse fieldPrime a : Nat) : ZMod fieldPrime) = (a : ZMod fieldPrime)⁻¹ :=
  natCast_inverse (by decide) (by decide) a

theorem mod_inj {a b : Nat} :
    a % fieldPrime = b % fieldPrime ↔ (a : ZMod fieldPrime) = b :=
  (ZMod.natCast_eq_natCast_iff' a b fieldPrime).symm

theorem mod_eq_zero_iff {a : Nat} : a % fieldPrime = 0 ↔ (a : ZMod fieldPrime) = 0 := by
  rw [ZMod.natCast_eq_zero_iff, Nat.dvd_iff_mod_eq_zero]

theorem natCast_inj {a b : Nat} (ha : a < fieldPrime) (hb : b < fieldPrime) :
    (a : ZMod fieldPrime) = b ↔ a = b := by
  rw [← mod_inj, Nat.mod_eq_of_lt ha, Nat.mod_eq_of_lt hb]

theorem onCurve_iff {x y : Nat} : OnCurve x y ↔ curve.Nonsingular x y := by
  rw [OnCurve, curve.nonsingular_iff, ← Nat.ModEq, ← ZMod.natCast_eq_natCast_iff]
  push_cast
  rfl

/-! ## Affine points -/

namespace Point

open WeierstrassCurve.Affine

/-- A point denotes an element of the group if it is the identity or a pair of
reduced coordinates of that element. -/
inductive Denotes : Point → curve.Point → Prop
  | infinity : Denotes .infinity 0
  | affine {x y : Nat} (hx : x < fieldPrime) (hy : y < fieldPrime)
      (h : curve.Nonsingular x y) : Denotes (.affine x y) (.some x y h)

variable {p q : Point} {P Q : curve.Point}

theorem denotes_affine {x y : Nat} {X Y : ZMod fieldPrime} {h : curve.Nonsingular X Y}
    (hx : x < fieldPrime) (hy : y < fieldPrime) (hX : (x : ZMod fieldPrime) = X)
    (hY : (y : ZMod fieldPrime) = Y) : Denotes (.affine x y) (.some X Y h) := by
  subst hX hY
  exact .affine hx hy h

theorem denotes_third {slope x₁ y₁ x₂ : Nat} {ℓ : ZMod fieldPrime}
    (hx₁ : x₁ < fieldPrime) (hy₁ : y₁ < fieldPrime) (hx₂ : x₂ < fieldPrime)
    (hslope : (slope : ZMod fieldPrime) = ℓ)
    {h : curve.Nonsingular (curve.addX x₁ x₂ ℓ) (curve.addY x₁ x₂ y₁ ℓ)} :
    Denotes (third slope x₁ y₁ x₂) (.some _ _ h) := by
  subst hslope
  refine denotes_affine (subMod_lt _ _) (subMod_lt _ _) ?_ ?_
  · rw [natCast_subMod hx₂.le, natCast_subMod hx₁.le, Nat.cast_mul, ← sq, curve.addX_eq]
  · rw [natCast_subMod hy₁.le, Nat.cast_mul, natCast_subMod (subMod_le _ _),
      natCast_subMod hx₂.le, natCast_subMod hx₁.le, Nat.cast_mul, ← sq, curve.addY_eq]

theorem natCast_tangent (x y : Nat) :
    (tangent x y : ZMod fieldPrime) = 3 * x ^ 2 / (2 * y) := by
  simp only [tangent, ZMod.natCast_mod, Nat.cast_mul, natCast_inverse_fieldPrime,
    Nat.cast_ofNat]
  rw [mul_assoc (3 : ZMod fieldPrime), ← sq, ← div_eq_mul_inv]

theorem natCast_chord {x₁ y₁ x₂ y₂ : Nat} (hx₁ : x₁ < fieldPrime) (hy₁ : y₁ < fieldPrime)
    (hne : (x₁ : ZMod fieldPrime) ≠ x₂) :
    (chord x₁ y₁ x₂ y₂ : ZMod fieldPrime) = curve.slope x₁ x₂ y₁ y₂ := by
  rw [slope_of_X_ne hne, chord, ZMod.natCast_mod, Nat.cast_mul,
    natCast_inverse_fieldPrime, natCast_subMod hy₁.le, natCast_subMod hx₁.le,
    ← div_eq_mul_inv, ← neg_div_neg_eq, neg_sub, neg_sub]

/-- The sum of two points denotes the sum of what they denote. -/
theorem Denotes.add (hp : p.Denotes P) (hq : q.Denotes Q) : (p.add q).Denotes (P + Q) := by
  cases hp with
  | infinity =>
      rw [zero_add]
      exact hq
  | @affine x₁ y₁ hx₁ hy₁ h₁ =>
      cases hq with
      | infinity =>
          rw [add_zero]
          exact .affine hx₁ hy₁ h₁
      | @affine x₂ y₂ hx₂ hy₂ h₂ =>
          rw [Point.add]
          split
          · next heq =>
              subst heq
              split
              · next hopp =>
                  rw [mod_eq_zero_iff, Nat.cast_add] at hopp
                  rw [WeierstrassCurve.Affine.Point.add_of_Y_eq rfl
                    (curve.negY_eq ▸ eq_neg_of_add_eq_zero_left hopp)]
                  exact .infinity
              · next hopp =>
                  rw [mod_eq_zero_iff, Nat.cast_add] at hopp
                  have hne : (y₁ : ZMod fieldPrime) ≠ curve.negY x₁ y₂ := by
                    rw [curve.negY_eq]
                    exact fun h => hopp (eq_neg_iff_add_eq_zero.mp h)
                  -- two points over one first coordinate are equal or opposite
                  obtain rfl : y₁ = y₂ :=
                    (natCast_inj hy₁ hy₂).mp (Y_eq_of_Y_ne h₁.1 h₂.1 rfl hne)
                  rw [WeierstrassCurve.Affine.Point.add_of_Y_ne hne]
                  refine denotes_third hx₁ hy₁ hx₁ ?_
                  rw [natCast_tangent, curve.slope_self (curve.eq_negY_self_iff.not.mp hne)]
          · next hne =>
              rw [← natCast_inj hx₁ hx₂] at hne
              rw [WeierstrassCurve.Affine.Point.add_of_X_ne hne]
              exact denotes_third hx₁ hy₁ hx₂ (natCast_chord hx₁ hy₁ hne)

end Point

/-! ## Jacobian triples -/

namespace Jacobian

open WeierstrassCurve.Affine

/-- A triple denotes an element of the group if its third entry is zero and the
element the identity, or its quotients are the coordinates of the element. -/
inductive Denotes (j : Jacobian) : curve.Point → Prop
  | identity (hz : j.z = 0) : Denotes j 0
  | affine {x y : ZMod fieldPrime} (hz : (j.z : ZMod fieldPrime) ≠ 0)
      (hx : (j.x : ZMod fieldPrime) = x * (j.z : ZMod fieldPrime) ^ 2)
      (hy : (j.y : ZMod fieldPrime) = y * (j.z : ZMod fieldPrime) ^ 3)
      (h : curve.Nonsingular x y) : Denotes j (.some x y h)

variable {p q : Jacobian} {P Q : curve.Point}

theorem denotes_identity : identity.Denotes 0 :=
  .identity rfl

theorem denotes_ofPoint {a : Point} (h : a.Denotes P) : (ofPoint a).Denotes P := by
  cases h with
  | infinity => exact denotes_identity
  | affine hx hy h =>
      exact .affine (by simp [ofPoint]) (by simp [ofPoint]) (by simp [ofPoint]) h

theorem z_ne_zero (h : (p.z : ZMod fieldPrime) ≠ 0) : p.z ≠ 0 :=
  fun hz => h (by rw [hz, Nat.cast_zero])

theorem denotes_toPoint (h : p.Denotes P) : p.toPoint.Denotes P := by
  cases h with
  | identity hz =>
      rw [toPoint, if_pos hz]
      exact .infinity
  | affine hz hx hy h =>
      rw [toPoint, if_neg (z_ne_zero hz)]
      refine Point.denotes_affine (Nat.mod_lt _ prime_fieldPrime.pos)
        (Nat.mod_lt _ prime_fieldPrime.pos) ?_ ?_
      · simp only [ZMod.natCast_mod, Nat.cast_mul, natCast_inverse_fieldPrime, hx]
        field_simp
      · simp only [ZMod.natCast_mod, Nat.cast_mul, natCast_inverse_fieldPrime, hy]
        field_simp

/-! The entries of a doubled triple, as elements of the field. -/

theorem natCast_double_x (p : Jacobian) : ((double p).x : ZMod fieldPrime) =
    (3 * p.x ^ 2) ^ 2 - 8 * p.x * p.y ^ 2 := by
  simp only [double, natCast_subMod, mod_le, ZMod.natCast_mod, Nat.cast_mul, Nat.cast_ofNat]
  ring

theorem natCast_double_y (p : Jacobian) : ((double p).y : ZMod fieldPrime) =
    3 * p.x ^ 2 * (4 * p.x * p.y ^ 2 - (double p).x) - 8 * p.y ^ 4 := by
  rw [natCast_double_x]
  simp only [double, natCast_subMod, mod_le, subMod_le, ZMod.natCast_mod, Nat.cast_mul,
    Nat.cast_ofNat]
  ring

theorem natCast_double_z (p : Jacobian) :
    ((double p).z : ZMod fieldPrime) = 2 * p.y * p.z := by
  simp only [double, ZMod.natCast_mod, Nat.cast_mul, Nat.cast_ofNat]

theorem double_z_eq_zero (h : 2 * (p.y : ZMod fieldPrime) * p.z = 0) :
    (double p).z = 0 := by
  rw [double, mod_eq_zero_iff]
  push_cast
  exact h

/-- Doubling a triple doubles what it denotes. -/
theorem Denotes.double (h : p.Denotes P) : (double p).Denotes (P + P) := by
  cases h with
  | identity hz =>
      rw [add_zero]
      exact .identity (double_z_eq_zero (by simp [hz]))
  | @affine x y hz hx hy h =>
      by_cases hzero : y = 0
      · subst hzero
        rw [WeierstrassCurve.Affine.Point.add_self_of_Y_eq (curve.eq_negY_self_iff.mpr rfl)]
        exact .identity (double_z_eq_zero (by simp [hy]))
      · have htwo := curve.two_ne_zero
        rw [WeierstrassCurve.Affine.Point.add_self_of_Y_ne
          (curve.eq_negY_self_iff.not.mpr hzero)]
        refine .affine ?_ ?_ ?_ _
        · rw [natCast_double_z, hy]
          exact mul_ne_zero (mul_ne_zero htwo (mul_ne_zero hzero (pow_ne_zero 3 hz))) hz
        · rw [natCast_double_x, natCast_double_z, hx, hy, curve.slope_self hzero,
            curve.addX_eq]
          field_simp
          ring
        · rw [natCast_double_y, natCast_double_x, natCast_double_z, hx, hy,
            curve.slope_self hzero, curve.addY_eq]
          field_simp
          ring

/-! Over their common denominator, the coordinates of two triples are compared
like those of the points that they denote. -/

theorem same_x_iff {x₁ x₂ : ZMod fieldPrime} (hz : (p.z * q.z : ZMod fieldPrime) ≠ 0)
    (hx₁ : (p.x : ZMod fieldPrime) = x₁ * (p.z : ZMod fieldPrime) ^ 2)
    (hx₂ : (q.x : ZMod fieldPrime) = x₂ * (q.z : ZMod fieldPrime) ^ 2) :
    p.x * (q.z * q.z % fieldPrime) % fieldPrime =
      q.x * (p.z * p.z % fieldPrime) % fieldPrime ↔ x₁ = x₂ := by
  rw [← mul_left_inj' (pow_ne_zero 2 hz) (a := x₁)]
  simp only [mod_inj, ZMod.natCast_mod, Nat.cast_mul, hx₁, hx₂]
  ring_nf

theorem same_y_iff {y₁ y₂ : ZMod fieldPrime} (hz : (p.z * q.z : ZMod fieldPrime) ≠ 0)
    (hy₁ : (p.y : ZMod fieldPrime) = y₁ * (p.z : ZMod fieldPrime) ^ 3)
    (hy₂ : (q.y : ZMod fieldPrime) = y₂ * (q.z : ZMod fieldPrime) ^ 3) :
    p.y * (q.z * q.z % fieldPrime * q.z % fieldPrime) % fieldPrime =
      q.y * (p.z * p.z % fieldPrime * p.z % fieldPrime) % fieldPrime ↔ y₁ = y₂ := by
  rw [← mul_left_inj' (pow_ne_zero 3 hz) (a := y₁)]
  simp only [mod_inj, ZMod.natCast_mod, Nat.cast_mul, hy₁, hy₂]
  ring_nf

/-- The sum of two triples denotes the sum of what they denote. -/
theorem Denotes.add (hp : p.Denotes P) (hq : q.Denotes Q) : (p.add q).Denotes (P + Q) := by
  cases hp with
  | identity hz =>
      rw [Jacobian.add, if_pos hz, zero_add]
      exact hq
  | @affine x₁ y₁ hz₁ hx₁ hy₁ h₁ =>
      rw [Jacobian.add, if_neg (z_ne_zero hz₁)]
      cases hq with
      | identity hz =>
          rw [if_pos hz, add_zero]
          exact .affine hz₁ hx₁ hy₁ h₁
      | @affine x₂ y₂ hz₂ hx₂ hy₂ h₂ =>
          rw [if_neg (z_ne_zero hz₂)]
          dsimp only
          have hz := mul_ne_zero hz₁ hz₂
          split
          · next heq =>
              obtain rfl := (same_x_iff hz hx₁ hx₂).mp heq
              split
              · next heq =>
                  obtain rfl := (same_y_iff hz hy₁ hy₂).mp heq
                  exact Denotes.double (.affine hz₁ hx₁ hy₁ h₁)
              · next hne =>
                  rw [same_y_iff hz hy₁ hy₂] at hne
                  rw [WeierstrassCurve.Affine.Point.add_of_Y_eq rfl
                    ((Y_eq_of_X_eq h₁.1 h₂.1 rfl).resolve_left hne)]
                  exact denotes_identity
          · next hne =>
              rw [same_x_iff hz hx₁ hx₂] at hne
              have hsub : x₁ - x₂ ≠ 0 := sub_ne_zero.mpr hne
              rw [WeierstrassCurve.Affine.Point.add_of_X_ne hne]
              refine .affine ?_ ?_ ?_ _
              all_goals simp only [natCast_subMod, mod_le, subMod_le, ZMod.natCast_mod,
                Nat.cast_mul, hx₁, hx₂, hy₁, hy₂, slope_of_X_ne hne,
                curve.addX_eq, curve.addY_eq]
              · refine mul_ne_zero hz fun h => hsub ?_
                rw [← neg_sub, neg_eq_zero, ← mul_eq_zero_iff_right (pow_ne_zero 2 hz)]
                linear_combination h
              · field_simp
                ring
              · field_simp
                ring

/-- Doubling and adding along the binary digits of `k` gives `k` copies. -/
theorem Denotes.mul {bits k : Nat} (hk : k < 2 ^ bits) (h : p.Denotes P) :
    (mul bits k p).Denotes (k • P) := by
  induction bits generalizing k p P with
  | zero =>
      have hzero : k = 0 := by rw [pow_zero] at hk; omega
      rw [hzero, zero_nsmul]
      exact denotes_identity
  | succ bits ih =>
      rw [pow_succ] at hk
      have hrest := ih (show k / 2 < 2 ^ bits by omega) h.double
      rw [← two_smul Nat P, smul_smul] at hrest
      rw [Jacobian.mul]
      split
      · next hodd =>
          have hsum := h.add hrest
          rwa [← succ_nsmul', show k / 2 * 2 + 1 = k by omega] at hsum
      · next heven => rwa [show k / 2 * 2 = k by omega] at hrest

end Jacobian

/-- A multiple of a point denotes the multiple of what the point denotes. -/
theorem Point.Denotes.mul {p : Point} {P : curve.Point} {k : Nat} (hk : k < 2 ^ 256)
    (h : p.Denotes P) : (Point.mul k p).Denotes (k • P) :=
  Jacobian.denotes_toPoint (Jacobian.Denotes.mul hk (Jacobian.denotes_ofPoint h))

/-! ## The base point -/

/-- The base point as an element of the group. -/
def generator : curve.Point :=
  .some _ _ (onCurve_iff.mp (by decide +kernel : OnCurve
    0x79be667ef9dcbbac55a06295ce870b07029bfcdb2dce28d959f2815b16f81798
    0x483ada7726a3c4655da4fbfc0e1108a8fd17b448a68554199c47d08ffb10d4b8))

theorem denotes_base : Point.base.Denotes generator :=
  .affine (by decide +kernel) (by decide +kernel) _

theorem order_smul_generator : order • generator = 0 := by
  have h := denotes_base.mul (show order < 2 ^ 256 by decide)
  rw [show Point.mul order Point.base = .infinity by decide +kernel] at h
  generalize order • generator = P at h
  cases h with
  | infinity => rfl

theorem addOrderOf_generator : addOrderOf generator = order :=
  addOrderOf_eq_prime order_smul_generator (WeierstrassCurve.Affine.Point.some_ne_zero _)

/-- Multiples of the base point agree if their factors are congruent. -/
theorem smul_generator_eq_iff {a b : Nat} :
    a • generator = b • generator ↔ (a : ZMod order) = b := by
  rw [nsmul_eq_nsmul_iff_modEq, addOrderOf_generator, ZMod.natCast_eq_natCast_iff]

end ConsensusEnvelope.Secp256k1
