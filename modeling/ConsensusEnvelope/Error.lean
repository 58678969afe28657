import ConsensusEnvelope.Binary.Fault
import ConsensusEnvelope.Coordinate

/-!
# Errors

The ways in which handling an envelope fails, each by its cause. That a
signature does not verify is not an error by itself; it becomes one where an
operation has no other answer.
-/

namespace ConsensusEnvelope

/-- Why a frame is refused. -/
inductive FrameFault where
  /-- The frame is longer than the receiver's limit; it is not looked at. -/
  | tooLong (length limit : Nat)
  | malformed (cause : Binary.Fault)
  deriving DecidableEq, Repr

/-- The fault in words. -/
def FrameFault.message : FrameFault → String
  | .tooLong length limit => s!"frame of {length} bytes exceeds limit of {limit} bytes"
  | .malformed cause => cause.message

/-- What a payload codec reports when it fails. Codecs belong to the consensus
layer, so the reason is whatever text they give. -/
inductive CodecError where
  | encode (reason : String)
  | decode (reason : String)
  deriving DecidableEq, Repr

/-- The error in words. -/
def CodecError.message : CodecError → String
  | .encode reason => "Encode failed: " ++ reason
  | .decode reason => "Decode failed: " ++ reason

/-- Why an operation on an envelope failed. -/
inductive Error where
  | axis (cause : AxisTooLong)
  | payloadTooLarge (size limit : Nat)
  | payload (cause : CodecError)
  | frame (cause : FrameFault)
  /-- A signature scalar came out as zero. -/
  | signing
  | verificationFailed
  | senderMismatch (expected actual : Coordinate)
  | aborted (cause : Abort)
  deriving DecidableEq

/-- The error in words. -/
def Error.message : Error → String
  | .axis cause => cause.message
  | .payloadTooLarge size limit => s!"Payload too large: {size} bytes > {limit} bytes"
  | .payload cause => "Payload codec error: " ++ cause.message
  | .frame cause => "Wire format error: " ++ cause.message
  | .signing => "Signing failed: signature error"
  | .verificationFailed => "Envelope signature verification failed"
  | .senderMismatch expected actual =>
    "Sender mismatch: expected " ++ expected.hex ++ ", got " ++ actual.hex
  | .aborted cause => cause.message

end ConsensusEnvelope
