import ConsensusEnvelope.Decimal.Binary64

/-!
# Shortest decimal text

The decimal text of a double-precision number has the fewest digits that read
back as the number, and among those the digits nearest to it. The search goes
through the decimal grids from one digit on; on each grid only the two
neighbours of the number can be nearest, so both are tried.

How the digits are laid out is a separate decision, recorded in `Layout`.
-/

namespace ConsensusEnvelope.Decimal

/-- The digits of a positive number and its decimal exponent:
`d₁.d₂d₃… * 10 ^ exponent`. -/
structure Digits where
  digits : List Char
  exponent : Int
  deriving DecidableEq, Repr

namespace Binary64

/-- `num / den` is below `10 ^ e`. -/
def belowPower (num den : Nat) (e : Int) : Bool :=
  if 0 ≤ e then num < den * Nat.pow 10 e.toNat else num * Nat.pow 10 (-e).toNat < den

/-- The decimal exponent of a positive ratio: the largest `e` with
`10 ^ e ≤ num / den`. Within the range of the format, three tenths of the binary
exponent plus two is an upper bound that is less than eight too high. -/
def decimalExponent (num den : Nat) : Int :=
  let top : Int := ((num.log2 : Int) - den.log2 + 1) * 3 / 10 + 2
  let candidates := (List.range 8).map fun (i : Nat) => top - i
  (candidates.find? fun e => !belowPower num den e).getD top

/-- `n * 10 ^ e` as a numerator and a denominator. -/
def powerRatio (n : Nat) (e : Int) : Nat × Nat :=
  if 0 ≤ e then (n * Nat.pow 10 e.toNat, 1) else (n, Nat.pow 10 (-e).toNat)

/-- Whether `n * 10 ^ e` reads back as `x`. -/
def readsBack (x : Binary64) (n : Nat) (e : Int) : Bool :=
  let (num, den) := powerRatio n e
  ofRatio? num den == some x

/-- The nearest neighbour of `x` on the grid of multiples of `10 ^ e` that reads
back as `x`. -/
def onGrid? (x : Binary64) (e : Int) : Option Nat :=
  let (num, den) := x.ratio
  let (num, den) :=
    if 0 ≤ e then (num, den * Nat.pow 10 e.toNat) else (num * Nat.pow 10 (-e).toNat, den)
  let low := num / den
  let twice := 2 * (num % den)
  let lowFirst := twice < den || (twice = den && low % 2 = 0)
  let order := if lowFirst then [low, low + 1] else [low + 1, low]
  order.find? fun n => x.readsBack n e

/-- The shortest digits that read back as a positive number. -/
def shortest (x : Binary64) : Digits :=
  let top := decimalExponent x.ratio.1 x.ratio.2
  let grids := (List.range 17).map fun (i : Nat) => top - i
  let found := grids.findSome? fun e => (x.onGrid? e).map fun n => (n, e)
  let (n, e) := found.getD (0, 0)
  let all := Nat.toDigits 10 n
  let stripped := (all.reverse.dropWhile (· == '0')).reverse
  ⟨stripped, e + all.length - 1⟩

end Binary64

/-- How digits become text: the decimal exponents that are written positionally,
and whether a positive exponent carries a sign. -/
structure Layout where
  leastPositional : Int
  mostPositional : Int
  plusSign : Bool

namespace Layout

/-- Digits with a point in their place, and at least one digit on either side of
it. -/
def positional (d : Digits) : List Char :=
  if d.exponent < 0 then
    '0' :: '.' :: List.replicate ((-d.exponent).toNat - 1) '0' ++ d.digits
  else
    let whole := d.exponent.toNat + 1
    let fraction := d.digits.drop whole
    d.digits.take whole ++ List.replicate (whole - d.digits.length) '0' ++
      '.' :: (if fraction.isEmpty then ['0'] else fraction)

/-- Digits with a point behind the first of them, and the exponent. -/
def scientific (layout : Layout) (d : Digits) : List Char :=
  let fraction := d.digits.drop 1
  let sign := if d.exponent < 0 then ['-'] else if layout.plusSign then ['+'] else []
  d.digits.take 1 ++ (if fraction.isEmpty then [] else '.' :: fraction) ++
    'e' :: sign ++ Nat.toDigits 10 d.exponent.natAbs

/-- The text of a number; the sign is kept for a negative zero too. -/
def text (layout : Layout) (negative : Bool) (x : Binary64) : String :=
  let body :=
    if x.mantissa = 0 then ['0', '.', '0']
    else
      let d := x.shortest
      if layout.leastPositional ≤ d.exponent ∧ d.exponent ≤ layout.mostPositional then positional d
      else layout.scientific d
  String.ofList (if negative then '-' :: body else body)

end Layout

end ConsensusEnvelope.Decimal
