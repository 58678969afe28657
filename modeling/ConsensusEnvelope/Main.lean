import ConsensusEnvelope.Tool.Run

/-!
# The tool as a process

The tool in the outside world: the arguments and environment of the process go
in, and what `run` gives comes out.
-/

namespace ConsensusEnvelope.Tool

/-- The value of each variable in the environment of the process. -/
def processEnvironment : IO Environment := do
  let domain ← IO.getEnv Variable.domain.name
  let version ← IO.getEnv Variable.version.name
  let maxPayload ← IO.getEnv Variable.maxPayload.name
  let secretKey ← IO.getEnv Variable.secretKey.name
  return fun
    | .domain => domain.map Utf8.encode
    | .version => version.map Utf8.encode
    | .maxPayload => maxPayload.map Utf8.encode
    | .secretKey => secretKey.map Utf8.encode

end ConsensusEnvelope.Tool

/-- Runs the tool on the command line. -/
def main (arguments : List String) : IO UInt32 := do
  let env ← ConsensusEnvelope.Tool.processEnvironment
  let random ← IO.getRandomBytes 32
  let output := ConsensusEnvelope.Tool.run env arguments random.data.toList
  (← IO.getStdout).putStr output.stdout
  (← IO.getStderr).putStr output.stderr
  return output.status.toUInt32
