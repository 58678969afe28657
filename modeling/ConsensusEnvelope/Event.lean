import ConsensusEnvelope.Error

/-!
# Events

Operations report what an operator may want to know: refused frames, rejected
envelopes, settings that were ignored. A `Traced` computation is a result
together with the events reported on the way to it, in their order; the events
stay even when the result is an error.
-/

namespace ConsensusEnvelope

/-- How much an event matters. -/
inductive Level where
  | debug
  | warn
  deriving DecidableEq, Repr

/-- The level in capital letters. -/
def Level.name : Level → String
  | .debug => "DEBUG"
  | .warn => "WARN"

/-- Something worth reporting. -/
inductive Event where
  | overrideIgnored (key value : String)
  | frameTooLong (length limit : Nat)
  | frameMalformed (length : Nat) (cause : Binary.Fault)
  | signed (version : UInt32) (sender : Coordinate) (payloadLength : Nat)
  | verificationFailed (version : UInt32) (sender : Coordinate) (payloadLength : Nat)
  | unexpectedSender (expected actual : Coordinate)
  | batchVerified (total invalid : Nat)
  deriving DecidableEq

namespace Event

/-- Refused frames and ignored settings are warnings; the rest is for
debugging. -/
def level : Event → Level
  | .overrideIgnored .. | .frameTooLong .. | .frameMalformed .. => .warn
  | .signed .. | .verificationFailed .. | .unexpectedSender .. | .batchVerified .. => .debug

/-- The event in words. -/
def message : Event → String
  | .overrideIgnored .. => "ignoring unparseable environment override"
  | .frameTooLong .. => "rejecting oversized envelope frame"
  | .frameMalformed .. => "rejecting malformed envelope frame"
  | .signed .. => "signed envelope"
  | .verificationFailed .. => "envelope failed verification"
  | .unexpectedSender .. => "envelope signed by unexpected sender"
  | .batchVerified .. => "batch verification complete"

/-- What an event says of an envelope. -/
def envelopeFields (version : UInt32) (sender : Coordinate) (payloadLength : Nat) :
    List (String × String) :=
  [("version", toString version.toNat), ("sender", sender.hex),
    ("payload_len", toString payloadLength)]

/-- The particulars of an event, by name. -/
def fields : Event → List (String × String)
  | .overrideIgnored key value => [("key", key), ("value", value)]
  | .frameTooLong length limit => [("frame_len", toString length), ("limit", toString limit)]
  | .frameMalformed length cause => [("frame_len", toString length), ("error", cause.message)]
  | .signed version sender length => envelopeFields version sender length
  | .verificationFailed version sender length => envelopeFields version sender length
  | .unexpectedSender expected actual => [("expected", expected.hex), ("actual", actual.hex)]
  | .batchVerified total invalid => [("total", toString total), ("invalid", toString invalid)]

end Event

/-- A result and the events reported on the way to it. -/
structure Traced (ε α : Type) where
  events : List Event
  outcome : Except ε α

namespace Traced

variable {ε δ α : Type}

/-- A result without events. -/
def ofExcept (outcome : Except ε α) : Traced ε α :=
  ⟨[], outcome⟩

/-- Reports an event. -/
def report (event : Event) : Traced ε Unit :=
  ⟨[event], .ok ()⟩

/-- Fails. -/
def fail (error : ε) : Traced ε α :=
  ⟨[], .error error⟩

/-- Rewords the error. -/
def mapError (f : ε → δ) (t : Traced ε α) : Traced δ α :=
  ⟨t.events, t.outcome.mapError f⟩

instance : Monad (Traced ε) where
  pure a := ⟨[], .ok a⟩
  bind t f :=
    match t.outcome with
    | .ok a => ⟨t.events ++ (f a).events, (f a).outcome⟩
    | .error error => ⟨t.events, .error error⟩

end Traced

end ConsensusEnvelope
