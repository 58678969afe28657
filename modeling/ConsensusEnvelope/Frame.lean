import ConsensusEnvelope.Binary.Identity
import ConsensusEnvelope.Event

/-!
# Frames

A frame is the binary form of an envelope as it travels between validators:

    version (4) ‖ length (8) ‖ x ‖ length (8) ‖ y ‖ length (8) ‖ payload ‖
      length (8) ‖ r ‖ length (8) ‖ s

with numbers least significant byte first. A receiver looks at no frame that is
longer than its payload limit plus a fixed allowance for the other fields.
Reading a frame does not verify it.
-/

namespace ConsensusEnvelope.Frame

/-- The allowance for everything in a frame but the payload. -/
def overhead : UInt64 := 1024

/-- The length of the longest frame that is looked at. -/
def limit (settings : Settings) : UInt64 :=
  settings.payloadLimit + overhead

/-- The options of frames. They name the order of bytes. -/
def options : Binary.Options :=
  Binary.Options.default.withFixedNumbers.withLittleEndian

/-- The frame of an envelope. -/
def encode (e : Envelope) : Bytes :=
  options.encode Binary.Format.envelope e

/-- The envelope in a frame. -/
def decode (settings : Settings) (frame : Bytes) : Except FrameFault Envelope :=
  if (limit settings).toNat < frame.length then
    .error (.tooLong frame.length (limit settings).toNat)
  else (options.decode Binary.Format.envelope frame).mapError .malformed

/-- The event that a refused frame gives rise to. -/
def refusal (frame : Bytes) : FrameFault → Event
  | .tooLong length limit => .frameTooLong length limit
  | .malformed cause => .frameMalformed frame.length cause

/-- The envelope in a received frame; a refused frame is reported. -/
def receive (settings : Settings) (frame : Bytes) : Traced Error Envelope :=
  match decode settings frame with
  | .ok e => pure e
  | .error fault => ⟨[refusal frame fault], .error (.frame fault)⟩

end ConsensusEnvelope.Frame
