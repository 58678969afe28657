/-!
# Arithmetic modulo a prime

Powers are taken by squaring, along the binary digits of the exponent. Fermat's
little theorem makes the power with exponent `m - 2` an inverse modulo a prime
`m`, so `inverse` needs no other algorithm.
-/

namespace ConsensusEnvelope.Secp256k1

/-- `base ^ k` modulo `m`, for an exponent below `2 ^ bits`. -/
def powMod (m : Nat) : (bits base k : Nat) → Nat
  | 0, _, _ => 1 % m
  | bits + 1, base, k =>
    let rest := powMod m bits (base * base % m) (k / 2)
    if k % 2 = 1 then base * rest % m else rest

/-- The inverse of `a` modulo a prime `m` below `2 ^ 256`; zero is sent to
zero. -/
def inverse (m a : Nat) : Nat :=
  powMod m 256 a (m - 2)

/-- The difference of `a` and `b` modulo `m`, for `b` at most `m`. -/
def subMod (m a b : Nat) : Nat :=
  (a + (m - b)) % m

end ConsensusEnvelope.Secp256k1
