import ConsensusEnvelope.Proofs.Secp256k1.Equation

/-!
# Signatures that signing produces verify

A secret scalar `d` has the public key `d · base`, which is never the identity,
because the base point has the prime order `order` and `0 < d < order`. With a
nonce `k` the signer publishes `r`, from the first coordinate of `k · base`, and
`s = (z + r · d) / k`. The point of the signature equation,
`(z / s) · base + (r / s) · (d · base)`, is then `k · base` again, so it has the
same first coordinate.

Signing returns the low one of this pair and its flipped form. The equation
holds for both.
-/

namespace ConsensusEnvelope.Secp256k1

theorem PublicKey.exists_of_denotes {p : Point} {P : curve.Point} (h : p.Denotes P)
    (hP : P ≠ 0) : ∃ key, PublicKey.ofPoint? p = some key ∧ key.element = P := by
  cases h with
  | infinity => exact absurd rfl hP
  | affine hx hy h =>
      exact ⟨⟨_, _, hx, hy, onCurve_iff.mpr h⟩,
        PublicKey.ofCoordinates?_eq_some_iff.mpr ⟨rfl, rfl⟩, rfl⟩

/-- Every secret key has a public key, which is its multiple of the base
point. -/
theorem SecretKey.exists_publicKey (key : SecretKey) :
    ∃ publicKey, key.publicKey? = some publicKey ∧
      publicKey.element = key.scalar • generator := by
  refine PublicKey.exists_of_denotes
    (denotes_base.mul (key.lt_order.trans order_lt)) fun hzero => ?_
  rw [← zero_nsmul generator, smul_generator_eq_iff, Nat.cast_zero] at hzero
  exact natCast_order_ne_zero key.pos key.lt_order hzero

theorem SecretKey.element_publicKey {key : SecretKey} {publicKey : PublicKey}
    (h : key.publicKey? = some publicKey) :
    publicKey.element = key.scalar • generator := by
  obtain ⟨found, hfound, helement⟩ := key.exists_publicKey
  rw [h, Option.some_inj] at hfound
  rw [hfound, helement]

theorem drawScalar?_eq_some {draws : Nat} {g : Generator} {k : Nat}
    (h : drawScalar? draws g = some k) : 0 < k ∧ k < order := by
  induction draws generalizing g with
  | zero => cases h
  | succ draws ih =>
      rw [drawScalar?] at h
      dsimp only at h
      split at h
      · next hrange => rwa [← Option.some.inj h]
      · exact ih h

/-- Scalars that solve the equation of signing lead the verifier to the point of
the nonce. -/
theorem equation_point {z r s d k : ZMod order} (hs : s ≠ 0) (hk : k * s = z + r * d) :
    (z / s) • generator + (r / s) • d • generator = k • generator := by
  have hfactor : z / s + r / s * d = k := by
    rw [div_mul_eq_mul_div, ← add_div, ← hk, mul_div_cancel_right₀ k hs]
  rw [smul_smul, ← add_smul, hfactor]

namespace SecretKey

variable {key : SecretKey} {publicKey : PublicKey} {digest : Bytes} {sig : Signature}

/-- A signature by a nonce in range passes the verifier. -/
theorem verifies_of_signWith? (hkey : key.publicKey? = some publicKey) {k : Nat}
    (hpos : 0 < k) (hlt : k < order) (h : key.signWith? digest k = some sig) :
    publicKey.verifies digest sig = true := by
  have hnonce := denotes_base.mul (hlt.trans order_lt)
  rw [signWith?] at h
  split at h
  · cases h
  · next x y hpoint =>
      dsimp only at h
      obtain ⟨found, hfound, rfl⟩ := Option.map_eq_some_iff.mp h
      obtain ⟨hr, hs⟩ := Signature.ofScalars?_eq_some_iff.mp hfound
      have hk : (k : ZMod order) * found.s = digest.value + found.r * key.scalar := by
        rw [hs, hr, ZMod.natCast_mod, Nat.cast_mul, natCast_inverse_order,
          mul_inv_cancel_left₀ (natCast_order_ne_zero hpos hlt), digestScalar]
        push_cast [ZMod.natCast_mod]
        rfl
      have hresidue : HasResidue (k • generator) found.r := by
        rw [hpoint] at hnonce
        exact (hnonce.hasScalar_iff found.r_lt).mp hr.symm
      rw [publicKey.verifies_normalize_iff, SatisfiesEquation, element_publicKey hkey,
        ← Nat.cast_smul_eq_nsmul (ZMod order), equation_point
          (natCast_order_ne_zero found.s_pos found.s_lt) hk, Nat.cast_smul_eq_nsmul]
      exact hresidue

/-- What a key signs verifies under its public key. -/
theorem verifies_of_sign? {entropy : Bytes} (hkey : key.publicKey? = some publicKey)
    (h : key.sign? digest entropy = some sig) : publicKey.verifies digest sig = true := by
  obtain ⟨k, hk, hsign⟩ := Option.bind_eq_some_iff.mp h
  obtain ⟨hpos, hlt⟩ := drawScalar?_eq_some hk
  exact verifies_of_signWith? hkey hpos hlt hsign

end SecretKey

end ConsensusEnvelope.Secp256k1
