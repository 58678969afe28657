import ConsensusEnvelope.Batch
import ConsensusEnvelope.Codec
import ConsensusEnvelope.Event

/-!
# Endpoints

An endpoint is what a validator talks through: settings, and the codec of its
consensus layer. It signs messages, and verifies envelopes before it looks at
their payloads: `read` hands no payload to the codec unless the envelope
verifies, and `verifySender` compares no sender before that either.
-/

namespace ConsensusEnvelope

/-- Settings and a payload codec. -/
structure Endpoint (α : Type) where
  settings : Settings
  codec : Codec α

namespace Endpoint

open Secp256k1

variable {α : Type}

/-- Writes a message into a payload and signs it. -/
def sign (endpoint : Endpoint α) (message : α) (key : SecretKey) (entropy : Bytes) :
    Traced Error Envelope := do
  let payload ← .ofExcept ((endpoint.codec.encode message).mapError .payload)
  let e ← .ofExcept (Envelope.signed endpoint.settings payload key entropy)
  .report (.signed e.version e.coordinate e.payload.length)
  return e

/-- Whether an envelope verifies; one that does not is reported. -/
def verify (endpoint : Endpoint α) (e : Envelope) : Traced Abort Bool := do
  let valid ← .ofExcept (e.verify endpoint.settings)
  if !valid then
    .report (.verificationFailed e.version e.coordinate e.payload.length)
  return valid

/-- Verifies an envelope, or fails. -/
def requireValid (endpoint : Endpoint α) (e : Envelope) : Traced Error Unit := do
  let valid ← (endpoint.verify e).mapError .aborted
  if valid then return () else .fail .verificationFailed

/-- Verifies an envelope and requires that it comes from the expected sender. -/
def verifySender (endpoint : Endpoint α) (e : Envelope) (expected : Coordinate) :
    Traced Error Unit := do
  endpoint.requireValid e
  if expected.Matches e.x e.y then return ()
  else
    .report (.unexpectedSender expected e.coordinate)
    .fail (.senderMismatch expected e.coordinate)

/-- Verifies an envelope and asks a decoder for the message in its payload. The decoder may
have effects of its own, such as a cache, a count or a record of what it was asked. -/
def readWith {m : Type → Type} [Monad m] (endpoint : Endpoint α)
    (ask : Bytes → m (Except CodecError α)) (e : Envelope) : m (Traced Error α) :=
  match endpoint.requireValid e with
  | ⟨events, .error error⟩ => return ⟨events, .error error⟩
  | ⟨events, .ok ()⟩ => do
    let answer ← ask e.payload
    return ⟨events, answer.mapError .payload⟩

/-- Verifies an envelope and reads the message in its payload, with the codec of the
endpoint for the decoder. -/
def read (endpoint : Endpoint α) (e : Envelope) : Traced Error α :=
  Id.run (endpoint.readWith (fun payload => pure (endpoint.codec.decode payload)) e)

/-- Verifies many envelopes. -/
def verifyBatch (endpoint : Endpoint α) (envelopes : List Envelope) : Traced Abort Batch := do
  let batch ← .ofExcept (Batch.verify endpoint.settings envelopes)
  .report (.batchVerified envelopes.length batch.invalidCount)
  return batch

end Endpoint

end ConsensusEnvelope
