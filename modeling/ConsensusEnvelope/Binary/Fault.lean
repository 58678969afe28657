import ConsensusEnvelope.Abort
import ConsensusEnvelope.Text.Utf8

/-!
# Why a binary form is refused

The causes that reading a binary form can fail with, and their
wording. A value that is cut off and a string whose stated length exceeds what
is left are told apart.
-/

namespace ConsensusEnvelope.Binary

/-- Why bytes are not the binary form of a value. -/
inductive Fault where
  /-- A number, a tag or an element is cut off. -/
  | endOfInput
  /-- A string or byte string is shorter than its stated length. -/
  | endOfString
  /-- All fields were read, and there are bytes left. -/
  | trailingBytes
  | axis (cause : AxisTooLong)
  | coordinateLength (length : Nat)
  | variant (index count : Nat)
  | flag (byte : UInt8)
  | optionTag (byte : UInt8)
  /-- No number of varying width starts with this byte. -/
  | numberHead (byte : UInt8)
  /-- A number is out of the range of its type. -/
  | numberRange (n width : Nat)
  | character
  | text (cause : Utf8.Fault)
  deriving DecidableEq, Repr

/-- The fault in words. -/
def Fault.message : Fault → String
  | .endOfInput => "io error: unexpected end of file"
  | .endOfString => "io error: "
  | .trailingBytes => "Slice had bytes remaining after deserialization"
  | .axis cause => cause.message
  | .coordinateLength length => s!"invalid length {length}, expected an byte array of size 64"
  | .variant index count =>
    s!"invalid value: integer `{index}`, expected variant index 0 <= i < {count}"
  | .flag byte =>
    s!"invalid u8 while decoding bool, expected 0 or 1, found {byte}"
  | .optionTag byte => s!"tag for enum is not valid, found {byte}"
  | .numberHead 254 =>
    "Invalid value (u128 range): you may have a version or configuration disagreement?"
  | .numberHead _ =>
    "\nByte 255 is treated as an extension point; it should not be encoding anything." ++
      "\nDo you have a mismatched bincode version or configuration?\n"
  | .numberRange n width => s!"Invalid u{8 * width} {n}: you may have a version disagreement?"
  | .character => "char is not valid"
  | .text cause => "string is not valid utf8: " ++ cause.message

end ConsensusEnvelope.Binary
