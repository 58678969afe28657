import ConsensusEnvelope.Binary.Format
import ConsensusEnvelope.Error

/-!
# Payload codecs

A codec turns the messages of a consensus layer into payloads and back. The
envelope layer knows nothing else of messages. Two codecs are provided: payloads
that are the messages themselves, and the binary form of any type that has one,
with numbers that take up the bytes of their type.
-/

namespace ConsensusEnvelope

/-- How messages are written into payloads and read from them. -/
structure Codec (α : Type) where
  encode : α → Except CodecError Bytes
  decode : Bytes → Except CodecError α

namespace Codec

/-- Payloads are messages. -/
def raw : Codec Bytes where
  encode message := .ok message
  decode payload := .ok payload

/-- The options of payloads. They rely on the default order of bytes. -/
def options : Binary.Options :=
  Binary.Options.default.withFixedNumbers

/-- Payloads are the binary form of messages. -/
def binary {α : Type} (form : Binary.Options → Binary.Format α) : Codec α where
  encode message := .ok (options.encode form message)
  decode payload := (options.decode form payload).mapError fun fault => .decode fault.message

end Codec

end ConsensusEnvelope
