import ConsensusEnvelope.Envelope

/-!
# Batches

The verdicts on a list of envelopes, in the order of the list, with their
counts.
-/

namespace ConsensusEnvelope

/-- The outcome of verifying many envelopes. -/
structure Batch where
  results : List Bool
  allValid : Bool
  validCount : Nat
  invalidCount : Nat
  deriving DecidableEq, Repr

namespace Batch

/-- The outcome that single verdicts add up to. -/
def ofResults (results : List Bool) : Batch :=
  let valid := results.count true
  let invalid := results.length - valid
  { results, allValid := invalid == 0, validCount := valid, invalidCount := invalid }

/-- Verifies each of some envelopes. -/
def verify (settings : Settings) (envelopes : List Envelope) : Except Abort Batch :=
  (envelopes.mapM (Envelope.verify settings)).map ofResults

end Batch

end ConsensusEnvelope
