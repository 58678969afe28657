import ConsensusEnvelope.Event
import ConsensusEnvelope.Settings
import ConsensusEnvelope.Text.Decimal

/-!
# Settings from the environment

Each field of the settings has a variable that overrides its default. A variable
that is not text counts as unset. One that is text but not a number of the right
range is ignored, and that is reported. No variable has an influence on another
field.
-/

namespace ConsensusEnvelope

/-- The environment variables that are looked at. -/
inductive Variable where
  | domain
  | version
  | maxPayload
  | secretKey
  deriving DecidableEq, Repr

/-- The name of a variable. -/
def Variable.name : Variable → String
  | .domain => "BDLS_SIGNATURE_PREFIX"
  | .version => "BDLS_PROTOCOL_VERSION"
  | .maxPayload => "BDLS_MAX_PAYLOAD_SIZE"
  | .secretKey => "BDLS_SECRET_KEY"

/-- The bytes of each variable that is set. -/
abbrev Environment := Variable → Option Bytes

namespace Environment

/-- The text of a variable, if it is set to a text. -/
def text? (env : Environment) (v : Variable) : Option String :=
  (env v).bind Utf8.decode?

/-- The number below `bound` that a variable is set to. -/
def number? (env : Environment) (v : Variable) (bound : Nat) : Option Nat :=
  (env.text? v).bind (Text.decimal? bound)

/-- The settings under an environment. -/
def settings (env : Environment) : Settings where
  domain := (env.text? .domain).getD Settings.default.domain
  version := ((env.number? .version UInt32.size).map UInt32.ofNat).getD Settings.default.version
  maxPayload :=
    ((env.number? .maxPayload UInt64.size).map UInt64.ofNat).getD Settings.default.maxPayload

/-- The report that a variable is text but not a number below `bound`, if that
is so. -/
def ignored? (env : Environment) (v : Variable) (bound : Nat) : Option Event :=
  match env.text? v, env.number? v bound with
  | some text, none => some (.overrideIgnored v.name text)
  | _, _ => none

/-- The settings under an environment, with a report of each variable that was
ignored. -/
def load {ε : Type} (env : Environment) : Traced ε Settings where
  events :=
    (env.ignored? .version UInt32.size).toList ++ (env.ignored? .maxPayload UInt64.size).toList
  outcome := .ok env.settings

end Environment

end ConsensusEnvelope
