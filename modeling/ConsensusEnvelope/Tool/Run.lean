import ConsensusEnvelope.Endpoint
import ConsensusEnvelope.Frame
import ConsensusEnvelope.Text.Blank
import ConsensusEnvelope.Tool.Command

/-!
# The command-line tool

The tool handles payloads as they are; it knows nothing of the messages inside.
`keygen` prints a new secret key and its coordinate, `sign` prints the frame of
a signed envelope in hexadecimal digits, and `verify` shows an envelope and
whether it verifies. Hexadecimal arguments may have blanks around them.

`run` is the whole tool but for the outside world: from the environment, the
arguments and random bytes to the exit status and what is printed.
-/

namespace ConsensusEnvelope.Tool

open Secp256k1

/-- What a run of the tool leaves behind. -/
structure Output where
  status : UInt8
  stdout : String
  stderr : String
  deriving DecidableEq, Repr

/-- Why a command failed. -/
inductive Failure where
  | payloadHex (cause : Hex.Fault)
  | secretHex (cause : Hex.Fault)
  | secretKey
  | envelopeHex (cause : Hex.Fault)
  | frame (cause : FrameFault)
  | envelope (cause : Error)
  deriving DecidableEq

namespace Failure

/-- What was being done. -/
def context : Failure → String
  | .payloadHex _ => "payload is not valid hex"
  | .secretHex _ => "secret key is not valid hex"
  | .secretKey => "secret key is not a valid secp256k1 scalar"
  | .envelopeHex _ => "envelope is not valid hex"
  | .frame _ => "envelope frame is malformed"
  | .envelope cause => cause.message

/-- What went wrong with it, if that is more. -/
def cause? : Failure → Option String
  | .payloadHex cause => some cause.message
  | .secretHex cause => some cause.message
  | .envelopeHex cause => some cause.message
  | .frame cause => some (Error.message (.frame cause))
  | .secretKey => none
  | .envelope _ => none

/-- The failure as it is printed. -/
def report (failure : Failure) : String :=
  match failure.cause? with
  | none => "Error: " ++ failure.context ++ "\n"
  | some cause => "Error: " ++ failure.context ++ "\n\nCaused by:\n    " ++ cause ++ "\n"

end Failure

/-- The bytes of a hexadecimal argument. -/
def hexArgument (text : String) : Except Hex.Fault Bytes :=
  Hex.decode (Utf8.encode (Text.trim text))

/-- The endpoint of the tool: payloads are messages. -/
def endpoint (settings : Settings) : Endpoint Bytes :=
  { settings, codec := .raw }

/-- The bytes of a payload argument. -/
def PayloadArgument.bytes : PayloadArgument → Except Failure Bytes
  | .text content => .ok (Utf8.encode content)
  | .hex digits => (hexArgument digits).mapError .payloadHex

/-- The secret key in a hexadecimal argument. -/
def readSecretKey (text : String) : Except Failure SecretKey := do
  let bytes ← (hexArgument text).mapError .secretHex
  match SecretKey.ofBytes? bytes with
  | some key => return key
  | none => throw .secretKey

/-- The lines that show a new key. -/
def keygen (key : SecretKey) : Except Failure String := do
  let coordinate ← (Coordinate.ofSecretKey key).mapError fun cause => .envelope (.aborted cause)
  return "secret-key: " ++ Hex.encode key.toBytes ++ "\ncoordinate: " ++ coordinate.hex ++ "\n"

/-- The line with the frame of a signed envelope. -/
def sign (settings : Settings) (secretKey : String) (payload : PayloadArgument)
    (entropy : Bytes) : Except Failure String := do
  let payload ← payload.bytes
  let key ← readSecretKey secretKey
  let e ← ((endpoint settings).sign payload key entropy).outcome.mapError .envelope
  return Hex.encode (Frame.encode e) ++ "\n"

/-- The lines that show an envelope and the verdict on it. -/
def display (e : Envelope) (valid : Bool) : String :=
  "version:    " ++ toString e.version.toNat ++
    "\nsender:     " ++ e.coordinate.hex ++
    "\npayload:    " ++ Utf8.lossy e.payload ++
    "\nsignature:  " ++ (if valid then "valid" else "INVALID") ++ "\n"

/-- The envelope in a hexadecimal argument, and the verdict on it. -/
def verify (settings : Settings) (text : String) : Except Failure (Envelope × Bool) := do
  let frame ← (hexArgument text).mapError .envelopeHex
  let e ← (Frame.decode settings frame).mapError .frame
  let valid ← ((endpoint settings).verify e).outcome.mapError fun cause =>
    .envelope (.aborted cause)
  return (e, valid)

/-- What a command leaves behind. Key generation and signing draw on the random
bytes. -/
def execute (settings : Settings) (random : Bytes) (command : Command) : Output :=
  let result : Except Failure (UInt8 × String) := match command with
    | .keygen => (keygen (SecretKey.ofEntropy random)).map fun text => (0, text)
    | .sign secretKey payload =>
      (sign settings secretKey payload random).map fun text => (0, text)
    | .verify text => (verify settings text).map fun (e, valid) =>
      (if valid then 0 else 1, display e valid)
  match result with
  | .ok (status, text) => { status, stdout := text, stderr := "" }
  | .error failure => { status := 1, stdout := "", stderr := failure.report }

/-- Runs the tool. -/
def run (env : Environment) (arguments : List String) (random : Bytes) : Output :=
  match Command.parse env arguments with
  | .ok command => execute env.settings random command
  | .error fault => { status := 2, stdout := "", stderr := "error: " ++ fault.message ++ "\n" }

end ConsensusEnvelope.Tool
