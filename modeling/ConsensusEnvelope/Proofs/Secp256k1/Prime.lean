import ConsensusEnvelope.Secp256k1.Point
import Mathlib.Data.List.Prime
import Mathlib.FieldTheory.Finite.Basic
import Mathlib.NumberTheory.LucasPrimality

/-!
# The two primes of the curve

Coordinates are residues modulo `fieldPrime` and scalars are residues modulo
`order`; both moduli are primes. A number is proved prime by Lucas's test: it
has a witness whose multiplicative order is the number less one, which takes
the prime factors of that number. They are proved prime in the same way, or by
trial division when they are small, so a proof is a list of steps, each of
which may use the ones before it.

Once the moduli are known to be primes, powers taken by squaring give inverses:
`inverse` is the inverse of the field.
-/

namespace ConsensusEnvelope.Secp256k1

theorem powMod_eq {m bits base k : Nat} (hk : k < 2 ^ bits) :
    powMod m bits base k = base ^ k % m := by
  induction bits generalizing base k with
  | zero =>
      have hzero : k = 0 := by rw [pow_zero] at hk; omega
      rw [hzero, pow_zero, powMod]
  | succ bits ih =>
      rw [pow_succ] at hk
      have hsquare : (base * base % m) ^ (k / 2) % m = base ^ (2 * (k / 2)) % m := by
        rw [← Nat.pow_mod, pow_mul, sq]
      rw [powMod, ih (by omega), hsquare]
      split
      · next hodd =>
          conv => rhs; rw [← Nat.div_add_mod k 2, hodd, pow_succ]
          rw [Nat.mul_mod_mod, Nat.mul_comm]
      · next heven =>
          conv => rhs; rw [← Nat.div_add_mod k 2, show k % 2 = 0 by omega, add_zero]

/-! ## Certificates -/

/-- No number from 2 to 255 divides `n`, other than `n` itself. For `n` below
`256 * 256` that leaves only primes. -/
def passesTrial (n : Nat) : Bool :=
  2 ≤ n && n < 65536 && (List.range (min n 256)).all fun d => d < 2 || n % d != 0

theorem prime_of_passesTrial {n : Nat} (h : passesTrial n = true) : n.Prime := by
  simp only [passesTrial, Bool.and_eq_true, Bool.or_eq_true, decide_eq_true_eq,
    List.all_eq_true, List.mem_range, bne_iff_ne] at h
  obtain ⟨⟨htwo, hlt⟩, htrial⟩ := h
  rw [Nat.prime_def_le_sqrt]
  refine ⟨htwo, fun d hd hsqrt hdvd => ?_⟩
  have hsq : d * d ≤ n := Nat.le_sqrt.mp hsqrt
  have hsmall : d < 256 := by
    by_contra hge
    have := Nat.mul_le_mul (Nat.not_lt.mp hge) (Nat.not_lt.mp hge)
    omega
  have hself : d < n := by
    have := Nat.mul_le_mul_right d hd
    omega
  rcases htrial d (lt_min hself hsmall) with h | h
  · omega
  · exact h (Nat.mod_eq_zero_of_dvd hdvd)

/-- One application of Lucas's test: a number, a witness, and the prime factors
of the number less one, as often as they divide it. -/
structure LucasStep where
  number : Nat
  witness : Nat
  factors : List Nat

namespace LucasStep

/-- The power of the witness with exponent `k`, modulo the number. -/
def power (step : LucasStep) (k : Nat) : Nat :=
  powMod step.number (step.number.log2 + 1) step.witness k

/-- The test of one step, when some numbers are already known to be primes. -/
def passes (known : List Nat) (step : LucasStep) : Bool :=
  2 ≤ step.number && step.factors.prod == step.number - 1 &&
    step.power (step.number - 1) == 1 &&
    step.factors.all fun q => (known.contains q || passesTrial q) &&
      step.power ((step.number - 1) / q) != 1

theorem power_eq_one_iff {step : LucasStep} (htwo : 2 ≤ step.number) {k : Nat}
    (hk : k ≤ step.number - 1) :
    step.power k = 1 ↔ (step.witness : ZMod step.number) ^ k = 1 := by
  have hlt : step.number < 2 ^ (step.number.log2 + 1) := Nat.lt_log2_self
  rw [power, powMod_eq (by omega), ← Nat.cast_pow, ← Nat.cast_one (R := ZMod _),
    ZMod.natCast_eq_natCast_iff', Nat.one_mod_eq_one.mpr (by omega)]

theorem prime_of_passes {known : List Nat} {step : LucasStep}
    (hknown : ∀ q ∈ known, q.Prime) (h : step.passes known = true) :
    step.number.Prime := by
  simp only [passes, Bool.and_eq_true, Bool.or_eq_true, decide_eq_true_eq, beq_iff_eq,
    bne_iff_ne, List.all_eq_true, List.contains_iff_mem] at h
  obtain ⟨⟨⟨htwo, hprod⟩, hfull⟩, hfactors⟩ := h
  refine lucas_primality step.number step.witness
    ((power_eq_one_iff htwo le_rfl).mp hfull) fun q hq hdvd => ?_
  have hmem : q ∈ step.factors := by
    rw [← hprod] at hdvd
    obtain ⟨f, hf, hqf⟩ := (Prime.dvd_prod_iff hq.prime).mp hdvd
    have hfprime : f.Prime := (hfactors f hf).1.elim (hknown f) prime_of_passesTrial
    rwa [(Nat.prime_dvd_prime_iff_eq hq hfprime).mp hqf]
  rw [Ne, ← power_eq_one_iff htwo (Nat.div_le_self _ _)]
  exact (hfactors q hmem).2

/-- The test of a list of steps, each with the help of those before it. -/
def allPass : (known : List Nat) → List LucasStep → Bool
  | _, [] => true
  | known, step :: steps => step.passes known && allPass (step.number :: known) steps

theorem prime_of_allPass {known : List Nat} {steps : List LucasStep}
    (hknown : ∀ q ∈ known, q.Prime) (h : allPass known steps = true) :
    ∀ step ∈ steps, step.number.Prime := by
  induction steps generalizing known with
  | nil => intro step hstep; cases hstep
  | cons first steps ih =>
      rw [allPass, Bool.and_eq_true] at h
      have hfirst := prime_of_passes hknown h.1
      intro step hstep
      rcases List.mem_cons.mp hstep with rfl | hmem
      · exact hfirst
      · refine ih (fun q hq => ?_) h.2 step hmem
        rcases List.mem_cons.mp hq with rfl | hq
        · exact hfirst
        · exact hknown q hq

end LucasStep

/-! ## The modulus of the coordinates -/

/-- The steps to `fieldPrime`. -/
def fieldPrimeSteps : List LucasStep :=
  [⟨13331831, 13, [2, 5, 971, 1373]⟩,
    ⟨173378833005251801, 6, [2, 2, 2, 5, 5, 2621, 24809, 13331831]⟩,
    ⟨22149492674086928081353, 5, [2, 2, 2, 3, 5323, 173378833005251801]⟩,
    ⟨132896956044521568488119, 6, [2, 3, 22149492674086928081353]⟩,
    ⟨96557, 2, [2, 2, 101, 239]⟩,
    ⟨1206781, 10, [2, 2, 3, 5, 20113]⟩,
    ⟨7240687, 3, [2, 3, 1206781]⟩,
    ⟨107590001, 3, [2, 2, 2, 2, 5, 5, 5, 5, 7, 29, 53]⟩,
    ⟨255515944373312847190720520512484175977, 3,
      [2, 2, 2, 7, 7, 11, 1627, 2657, 4423, 41201, 96557, 7240687, 107590001]⟩,
    ⟨205115282021455665897114700593932402728804164701536103180137503955397371, 10,
      [2, 3, 5, 29, 29, 31, 7723, 132896956044521568488119,
        255515944373312847190720520512484175977]⟩,
    ⟨fieldPrime, 3,
      [2, 3, 7, 13441,
        205115282021455665897114700593932402728804164701536103180137503955397371]⟩]

theorem prime_fieldPrime : fieldPrime.Prime :=
  LucasStep.prime_of_allPass (List.forall_mem_nil _)
    (by decide +kernel : LucasStep.allPass [] fieldPrimeSteps = true)
    (fieldPrimeSteps.getLast (by decide)) (List.getLast_mem _)

instance : Fact fieldPrime.Prime := ⟨prime_fieldPrime⟩

/-! ## The modulus of the scalars -/

/-- The steps to `order`. -/
def orderSteps : List LucasStep :=
  [⟨85831, 3, [2, 3, 5, 2861]⟩,
    ⟨4681609, 23, [2, 2, 2, 3, 97, 2011]⟩,
    ⟨107361793816595537, 3, [2, 2, 2, 2, 16699, 85831, 4681609]⟩,
    ⟨120233, 3, [2, 2, 2, 7, 19, 113]⟩,
    ⟨44706919, 6, [2, 3, 797, 9349]⟩,
    ⟨174723607534414371449, 3, [2, 2, 2, 17, 59, 4051, 120233, 44706919]⟩,
    ⟨305873, 3, [2, 2, 2, 2, 7, 2731]⟩,
    ⟨545358713, 5, [2, 2, 2, 41, 59, 28181]⟩,
    ⟨1627771, 3, [2, 3, 5, 29, 1871]⟩,
    ⟨297159362677, 2, [2, 2, 3, 3, 11, 461, 1627771]⟩,
    ⟨29047611873442575647497758179, 2, [2, 293, 305873, 545358713, 297159362677]⟩,
    ⟨341948486974166000522343609283189, 2,
      [2, 2, 3, 3, 3, 109, 29047611873442575647497758179]⟩,
    ⟨order, 7,
      [2, 2, 2, 2, 2, 2, 3, 149, 631, 107361793816595537, 174723607534414371449,
        341948486974166000522343609283189]⟩]

theorem prime_order : order.Prime :=
  LucasStep.prime_of_allPass (List.forall_mem_nil _)
    (by decide +kernel : LucasStep.allPass [] orderSteps = true)
    (orderSteps.getLast (by decide)) (List.getLast_mem _)

instance : Fact order.Prime := ⟨prime_order⟩

/-! ## Residues -/

section Residues

variable {m : Nat}

theorem natCast_subMod {a b : Nat} (hb : b ≤ m) :
    ((subMod m a b : Nat) : ZMod m) = (a : ZMod m) - b := by
  rw [subMod, ZMod.natCast_mod, Nat.cast_add, Nat.cast_sub hb, ZMod.natCast_self]
  ring

theorem natCast_inverse [Fact m.Prime] (hm : m < 2 ^ 256) (htwo : 2 < m) (a : Nat) :
    ((inverse m a : Nat) : ZMod m) = (a : ZMod m)⁻¹ := by
  rw [inverse, powMod_eq (by omega), ZMod.natCast_mod, Nat.cast_pow]
  by_cases ha : (a : ZMod m) = 0
  · rw [ha, inv_zero, zero_pow (by omega)]
  · refine eq_inv_of_mul_eq_one_left ?_
    rw [← pow_succ, show m - 2 + 1 = m - 1 by omega]
    exact ZMod.pow_card_sub_one_eq_one ha

end Residues

end ConsensusEnvelope.Secp256k1
