import ConsensusEnvelope.Proofs.Secp256k1.Group
import Mathlib.Algebra.Module.ZMod
import Mathlib.GroupTheory.Perm.Cycle.Type

/-!
# The group of the curve has prime order

The base point has order `order`, so `order` divides the number of points. To
see that there are no further points, their number is bounded and its parity
determined.

A point is determined by its first coordinate and the parity of its second one,
because two points over one first coordinate are opposite, and opposite residues
modulo an odd prime differ in parity. That leaves at most `2 * fieldPrime + 1`
points, less than three times `order`. Twice `order` is excluded as well: in a
group of even order some element other than the identity is its own opposite,
and on this curve it would have the second coordinate zero and a first one whose
cube is `-7`. But `-7` is not a cube, as the power with exponent
`(fieldPrime - 1) / 3` shows.

Every element of a group of order `order` is annihilated by `order`, so scalars
may be taken modulo `order`: the group is a vector space over the scalars.
-/

namespace ConsensusEnvelope.Secp256k1

namespace curve

open WeierstrassCurve.Affine

/-- The first coordinate of a point and the parity of the second one. -/
def compress : curve.Point → Option (ZMod fieldPrime × Bool)
  | .zero => none
  | .some x y _ => some (x, y.val % 2 = 1)

theorem parity_neg {y : ZMod fieldPrime} (hy : y ≠ 0) :
    (-y).val % 2 = 1 ↔ ¬ y.val % 2 = 1 := by
  have hlt := y.val_lt
  have hodd : fieldPrime % 2 = 1 := by decide
  rw [ZMod.neg_val, if_neg hy]
  omega

theorem compress_injective : Function.Injective compress := by
  intro P Q h
  cases P with
  | zero =>
      cases Q with
      | zero => rfl
      | some x y hQ => cases h
  | some x₁ y₁ h₁ =>
      cases Q with
      | zero => cases h
      | some x₂ y₂ h₂ =>
          simp only [compress, Option.some_inj, Prod.mk.injEq, decide_eq_decide] at h
          obtain ⟨rfl, hparity⟩ := h
          rcases Point.X_eq_iff.mp (rfl : x₁ = x₁) with heq | hopp
          · exact heq
          · rw [Point.neg_some, Point.some.injEq, negY_eq] at hopp
            obtain ⟨-, rfl⟩ := hopp
            by_cases hzero : y₂ = 0
            · subst hzero
              rw [Point.some.injEq]
              exact ⟨rfl, neg_zero⟩
            · rw [parity_neg hzero] at hparity
              exact absurd hparity not_iff_self

instance : Finite curve.Point :=
  Finite.of_injective compress compress_injective

theorem card_le : Nat.card curve.Point ≤ 2 * fieldPrime + 1 := by
  have h := Nat.card_le_card_of_injective compress compress_injective
  rw [Finite.card_option, Nat.card_prod, Nat.card_zmod,
    Nat.card_eq_fintype_card (α := Bool), Fintype.card_bool] at h
  omega

theorem cube_ne_neg_seven (x : ZMod fieldPrime) : x * x * x ≠ -7 := by
  intro h
  have hx : x ≠ 0 := by
    rintro rfl
    exact absurd h (by decide +kernel)
  have hcube : ((fieldPrime - 7 : Nat) : ZMod fieldPrime) = x ^ 3 := by
    rw [Nat.cast_sub (by decide), ZMod.natCast_self]
    push_cast
    linear_combination -h
  have hthird : 3 * ((fieldPrime - 1) / 3) = fieldPrime - 1 := by decide
  have hpower : (fieldPrime - 7) ^ ((fieldPrime - 1) / 3) % fieldPrime = 1 % fieldPrime := by
    rw [mod_inj, Nat.cast_pow, hcube, ← pow_mul, hthird, Nat.cast_one]
    exact ZMod.pow_card_sub_one_eq_one hx
  rw [← powMod_eq (show (fieldPrime - 1) / 3 < 2 ^ 256 by decide)] at hpower
  exact absurd hpower (by decide +kernel)

theorem add_self_ne_zero {P : curve.Point} (hP : P ≠ 0) : P + P ≠ 0 := by
  intro h
  cases P with
  | zero => exact hP rfl
  | some x y hxy =>
      rw [add_eq_zero_iff_eq_neg, Point.neg_some, Point.some.injEq] at h
      have hy : y = 0 := eq_negY_self_iff.mp h.2
      rw [nonsingular_iff, hy, zero_mul] at hxy
      exact cube_ne_neg_seven x (eq_neg_of_add_eq_zero_left hxy.symm)

theorem two_not_dvd_card : ¬ 2 ∣ Nat.card curve.Point := by
  intro hdvd
  obtain ⟨P, hP⟩ := exists_prime_addOrderOf_dvd_card' 2 hdvd
  have hne : P ≠ 0 := by
    rintro rfl
    rw [addOrderOf_zero] at hP
    exact absurd hP (by decide)
  refine add_self_ne_zero hne ?_
  rw [← two_nsmul, ← hP]
  exact addOrderOf_nsmul_eq_zero P

/-- The curve has as many points as the base point has multiples. -/
theorem card_eq_order : Nat.card curve.Point = order := by
  obtain ⟨k, hk⟩ : order ∣ Nat.card curve.Point := by
    rw [← addOrderOf_generator]
    exact addOrderOf_dvd_natCard generator
  have hle := card_le
  have hodd := two_not_dvd_card
  have hpos : 0 < Nat.card curve.Point := Nat.card_pos
  have hbound : 2 * fieldPrime + 1 < order * 3 := by decide
  have hthree : k < 3 := by
    by_contra hge
    have := Nat.mul_le_mul_left order (Nat.not_lt.mp hge)
    omega
  interval_cases k
  · omega
  · rw [hk, mul_one]
  · exact absurd (hk ▸ dvd_mul_left 2 order) hodd

theorem order_nsmul (P : curve.Point) : order • P = 0 := by
  rw [← card_eq_order]
  exact card_nsmul_eq_zero'

/-- Scalars modulo `order` act on the points of the curve. -/
noncomputable instance : Module (ZMod order) curve.Point :=
  AddCommGroup.zmodModule order_nsmul

end curve

end ConsensusEnvelope.Secp256k1
