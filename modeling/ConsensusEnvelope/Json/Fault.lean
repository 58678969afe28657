import ConsensusEnvelope.Abort
import ConsensusEnvelope.Decimal.Shortest
import ConsensusEnvelope.Text.Quoted

/-!
# Why a JSON text is refused

Reading goes through the text once, from left to right, and the first fault ends
it. A text can be malformed, end too early, or be well formed so far and hold
something else than expected.
-/

namespace ConsensusEnvelope.Json

/-- A number in a JSON text. Integers between `-2 ^ 63` and `2 ^ 64 - 1` that
are written without a fraction or exponent are kept as integers, except for a
negative zero. -/
inductive Number where
  | unsigned (n : Nat)
  /-- The number `-n`, for positive `n`. -/
  | negative (n : Nat)
  | float (negative : Bool) (x : Decimal.Binary64)
  deriving DecidableEq, Repr

/-- Floating-point numbers are written positionally from `1e-5` up to below
`1e16`. -/
def floatLayout : Decimal.Layout where
  leastPositional := -5
  mostPositional := 15
  plusSign := true

/-- The value that stands where another one was expected. -/
inductive Found where
  | null
  | boolean (b : Bool)
  | number (n : Number)
  | string (text : String)
  | sequence
  | map
  deriving DecidableEq, Repr

/-- The value as messages name it. -/
def Found.message : Found → String
  | .null => "null"
  | .boolean b => s!"boolean `{b}`"
  | .number (.unsigned n) => s!"integer `{n}`"
  | .number (.negative n) => s!"integer `-{n}`"
  | .number (.float negative x) => "floating point `" ++ floatLayout.text negative x ++ "`"
  | .string text => "string " ++ Text.quote text
  | .sequence => "sequence"
  | .map => "map"

/-- What a reader expects. -/
inductive Expected where
  | u8
  | u32
  | axis
  | coordinate
  | byteSequence
  | envelope
  | envelopeElements
  deriving DecidableEq, Repr

/-- The expectation as messages name it. -/
def Expected.message : Expected → String
  | .u8 => "u8"
  | .u32 => "u32"
  | .axis => "at most 32 big-endian bytes"
  | .coordinate => "an byte array of size 64"
  | .byteSequence => "a sequence"
  | .envelope => "struct SignedEnvelope"
  | .envelopeElements => "struct SignedEnvelope with 6 elements"

/-- The fields of an envelope. -/
inductive Field where
  | version
  | x
  | y
  | payload
  | r
  | s
  deriving DecidableEq, Repr

namespace Field

/-- All fields in the order in which they are written. -/
def all : List Field :=
  [.version, .x, .y, .payload, .r, .s]

/-- The key of a field. -/
def name : Field → String
  | .version => "version"
  | .x => "x"
  | .y => "y"
  | .payload => "payload"
  | .r => "r"
  | .s => "s"

end Field

/-- How well-formed text differs from what was expected. -/
inductive Mismatch where
  | type (found : Found) (expected : Expected)
  | value (found : Found) (expected : Expected)
  | length (n : Nat) (expected : Expected)
  | duplicate (field : Field)
  | missing (field : Field)
  | axis (cause : AxisTooLong)
  deriving DecidableEq, Repr

/-- The difference in words. -/
def Mismatch.message : Mismatch → String
  | .type found expected => "invalid type: " ++ found.message ++ ", expected " ++ expected.message
  | .value found expected => "invalid value: " ++ found.message ++ ", expected " ++ expected.message
  | .length n expected => s!"invalid length {n}, expected " ++ expected.message
  | .duplicate field => "duplicate field `" ++ field.name ++ "`"
  | .missing field => "missing field `" ++ field.name ++ "`"
  | .axis cause => cause.message

/-- Why reading a JSON text stopped. -/
inductive Fault where
  | malformed
  | truncated
  | mismatch (cause : Mismatch)
  deriving DecidableEq, Repr

end ConsensusEnvelope.Json
