import ConsensusEnvelope.Proofs.Verification

/-!
# The forms in which a signature may come

The scalars of a signature are byte strings, and many byte strings stand for one
scalar: zeros in front of it do not count. On top of that `s` may be exchanged
for its opposite, the scalar that makes up the order together with it. All these
forms are equivalent, and verification gives one answer for a whole class of
them.

Neither the fitting of a scalar to its width nor the range check nor the choice
of the low `s` has to be followed for that. Whether a signature holds has been
put into terms of values already, and there only two things remain to be seen.
Of two numbers that add up to the order, one lies strictly between zero and the
order exactly if the other does; this settles the ends of the range, where zero
is the opposite of the order itself. And modulo the order opposite scalars are
negatives of each other, under which the signature equation is symmetric.
-/

namespace ConsensusEnvelope

open Secp256k1

namespace Envelope

/-- Two envelopes make the same statement and bear forms of the same signature:
equal values of `r`, and values of `s` that are equal or add up to the order. -/
structure Equivalent (e e' : Envelope) : Prop where
  statement : e.toStatement = e'.toStatement
  r : e.r.value = e'.r.value
  s : e.s.value = e'.s.value ∨ e.s.value + e'.s.value = order

theorem equivalence_equivalent : Equivalence Equivalent where
  refl _ := ⟨rfl, rfl, .inl rfl⟩
  symm h := ⟨h.statement.symm, h.r.symm, by have := h.s; omega⟩
  trans h h' := ⟨h.statement.trans h'.statement, h.r.trans h'.r, by
    have hs := h.s
    have hs' := h'.s
    omega⟩

/-- Zeros in front of the scalars make no difference. -/
theorem equivalent_zeros (e : Envelope) (i j : Nat) :
    e.Equivalent { e with
      r := List.replicate i 0 ++ e.r
      s := List.replicate j 0 ++ e.s } where
  statement := rfl
  r := (Bytes.value_replicate_append i e.r).symm
  s := .inl (Bytes.value_replicate_append j e.s).symm

/-- Nor does the exchange of `s` for its opposite, zeros in front of it or not. -/
theorem equivalent_opposite {e : Envelope} {s : Bytes} (h : e.s.value + s.value = order) :
    e.Equivalent { e with s } where
  statement := rfl
  r := rfl
  s := .inr h

end Envelope

/-! ## Opposite scalars -/

theorem Secp256k1.inRange_iff_of_opposite {s s' : Nat} (h : s = s' ∨ s + s' = order) :
    0 < s ∧ s < order ↔ 0 < s' ∧ s' < order := by
  omega

theorem Secp256k1.satisfiesEquation_iff_of_opposite {Q : curve.Point} {z r : ZMod order}
    {s s' : Nat} (h : s = s' ∨ s + s' = order) :
    SatisfiesEquation Q z r s ↔ SatisfiesEquation Q z r s' := by
  rcases h with rfl | hsum
  · rfl
  · have hneg : (s : ZMod order) = -s' := by
      rw [eq_neg_iff_add_eq_zero, ← Nat.cast_add, hsum, ZMod.natCast_self]
    rw [hneg]
    exact satisfiesEquation_neg

/-! ## The verdict -/

namespace Envelope

variable {settings : Settings} {e e' : Envelope}

theorem Equivalent.holds_iff (h : e.Equivalent e') :
    e.Holds settings ↔ e'.Holds settings := by
  have hx : e.x = e'.x := congrArg Statement.x h.statement
  have hy : e.y = e'.y := congrArg Statement.y h.statement
  rw [Envelope.holds_iff, Envelope.holds_iff, hx, hy, h.statement, h.r,
    inRange_iff_of_opposite h.s]
  simp only [satisfiesEquation_iff_of_opposite h.s]

theorem Equivalent.verify_eq (h : e.Equivalent e') :
    e.verify settings = e'.verify settings := by
  have hpayload : e.payload = e'.payload := congrArg Statement.payload h.statement
  refine verify_eq_of_iff ?_
  rw [verify_eq_true_iff, verify_eq_true_iff, hpayload, h.holds_iff]

/-- All forms of one signature get one answer, whatever it is: verification comes
to the same verdict on every envelope that is equivalent to a given one. Among
them are those with any number of zeros in front of the scalars, and those with
the opposite of `s`, for every value of `s` that has one. -/
theorem verdict_of_equivalent (settings : Settings) (e : Envelope) :
    (∃ accepted, e.verify settings = .ok accepted ∧
      ∀ e', e.Equivalent e' → e'.verify settings = .ok accepted) ∧
    (∀ i j, e.Equivalent { e with
      r := List.replicate i 0 ++ e.r
      s := List.replicate j 0 ++ e.s }) ∧
    ∀ s : Bytes, e.s.value + s.value = order → e.Equivalent { e with s } := by
  refine ⟨?_, e.equivalent_zeros, fun _ => equivalent_opposite⟩
  obtain ⟨accepted, haccepted⟩ := exists_verify_eq_ok settings e
  refine ⟨accepted, haccepted, fun e' h => ?_⟩
  rw [← h.verify_eq, haccepted]

/-- The high form of a signature that is accepted, with eight zeros in front of
`r`, is accepted as well. -/
theorem verdict_of_equivalent_helloBdls :
    ∃ e, helloBdls.Equivalent e ∧ order / 2 < e.s.value ∧ e.r.length = 40 ∧
      e.verify Settings.default = .ok true := by
  have hopposite : helloBdls.s.value +
      (Bytes.bigEndian 32 (order - helloBdls.s.value)).value = order := by decide
  obtain ⟨⟨accepted, haccepted, hclass⟩, hzeros, -⟩ :=
    verdict_of_equivalent Settings.default helloBdls
  have htrue : (helloBdls.verify Settings.default).toOption = some true := by decide +kernel
  rw [haccepted] at htrue
  cases htrue
  have hequivalent := equivalence_equivalent.trans (hzeros 8 0)
    (equivalent_opposite (e := { helloBdls with r := List.replicate 8 0 ++ helloBdls.r })
      hopposite)
  exact ⟨_, hequivalent, by decide, by decide, hclass _ hequivalent⟩

end Envelope

end ConsensusEnvelope
