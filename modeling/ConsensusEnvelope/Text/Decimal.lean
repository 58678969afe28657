import ConsensusEnvelope.Bytes.Basic

/-!
# Unsigned decimal numbers

The digits that an environment variable may hold: one optional plus sign, then
one or more ASCII digits, leading zeros included, and nothing else.
-/

namespace ConsensusEnvelope.Text

/-- The number that a digit stands for. -/
def digit? (c : Char) : Option Nat :=
  if '0' ≤ c ∧ c ≤ '9' then some (c.toNat - '0'.toNat) else none

/-- The number that digits stand for, behind those that make up `n`. -/
def digitsFrom? (n : Nat) : List Char → Option Nat
  | [] => some n
  | c :: rest => (digit? c).bind fun d => digitsFrom? (10 * n + d) rest

/-- The number that one or more digits stand for. -/
def digits? : List Char → Option Nat
  | [] => none
  | chars => digitsFrom? 0 chars

/-- Reads a decimal number below `bound`. -/
def decimal? (bound : Nat) (text : String) : Option Nat :=
  let chars := match text.toList with
    | '+' :: rest => rest
    | chars => chars
  (digits? chars).filter (· < bound)

end ConsensusEnvelope.Text
