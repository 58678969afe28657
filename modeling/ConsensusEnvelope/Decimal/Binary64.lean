/-!
# Double-precision numbers

The finite non-negative numbers of the binary64 format, as a mantissa and a
power of two, with the operations that reading a decimal literal needs. Each
operation is the exact rational result, rounded once: to the nearest number of
the format, and from a tie to the one with the even mantissa. A result that
rounds to `2 ^ 1024` or more has no finite number.
-/

namespace ConsensusEnvelope.Decimal

/-- The number `mantissa * 2 ^ exponent`. -/
@[ext] structure Binary64 where
  mantissa : Nat
  exponent : Int
  deriving DecidableEq, Repr

namespace Binary64

/-- The bound that mantissas stay below: they have 53 bits. -/
def mantissaBound : Nat := 0x20000000000000

/-- Zero, with the exponent of the smallest numbers. -/
def zero : Binary64 :=
  ⟨0, -1074⟩

/-- The number as a numerator and a denominator. -/
def ratio (x : Binary64) : Nat × Nat :=
  if 0 ≤ x.exponent then (x.mantissa * Nat.pow 2 x.exponent.toNat, 1)
  else (x.mantissa, Nat.pow 2 (-x.exponent).toNat)

/-- The quotient to the nearest integer, ties to the even one. -/
def roundQuotient (num den : Nat) : Nat :=
  let q := num / den
  let twice := 2 * (num % den)
  if twice < den then q else if den < twice then q + 1 else q + q % 2

/-- `num / den / 2 ^ e`, as a numerator and a denominator. -/
def scaled (num den : Nat) (e : Int) : Nat × Nat :=
  if 0 ≤ e then (num, den * Nat.pow 2 e.toNat) else (num * Nat.pow 2 (-e).toNat, den)

/-- The number nearest to `num / den`, for a positive denominator, if it is
finite. -/
def ofRatio? (num den : Nat) : Option Binary64 :=
  if num = 0 then some zero
  else
    let guess : Int := max ((num.log2 : Int) - den.log2 - 53) (-1074)
    let (n, d) := scaled num den guess
    let e := if mantissaBound ≤ n / d then guess + 1 else guess
    let (n, d) := scaled num den e
    let m := roundQuotient n d
    let (m, e) := if m = mantissaBound then (mantissaBound / 2, e + 1) else (m, e)
    if 971 < e then none else some ⟨m, e⟩

/-- The product, if it is finite. -/
def mul? (x y : Binary64) : Option Binary64 :=
  ofRatio? (x.ratio.1 * y.ratio.1) (x.ratio.2 * y.ratio.2)

/-- The quotient by a number that is not zero, if it is finite. -/
def div? (x y : Binary64) : Option Binary64 :=
  ofRatio? (x.ratio.1 * y.ratio.2) (x.ratio.2 * y.ratio.1)

/-- The number nearest to a power of ten, if it is finite. -/
def powerOfTen? (k : Nat) : Option Binary64 :=
  ofRatio? (Nat.pow 10 k) 1

/-- Scales `x` by `10 ^ k` the way decimal literals are evaluated: one
multiplication or division by a power of at most `10 ^ 308`, after dividing by
`10 ^ 308` as long as `k` is below `-308`. Such divisions reach zero within
three steps. There is no result above the range of the format. -/
def scale? : (steps : Nat) → Binary64 → (k : Int) → Option Binary64
  | 0, _, _ => some zero
  | steps + 1, x, k =>
    if k.natAbs ≤ 308 then
      (powerOfTen? k.natAbs).bind fun p => if 0 ≤ k then x.mul? p else x.div? p
    else if x.mantissa = 0 then some x
    else if 0 ≤ k then none
    else
      (powerOfTen? 308).bind fun p => (x.div? p).bind fun x => scale? steps x (k + 308)

/-- The value of a literal with the given digits and power of ten, if it is
finite. -/
def ofLiteral? (digits : Nat) (k : Int) : Option Binary64 :=
  (ofRatio? digits 1).bind fun x => scale? 4 x k

end Binary64

end ConsensusEnvelope.Decimal
