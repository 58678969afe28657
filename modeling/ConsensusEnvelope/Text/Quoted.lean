import ConsensusEnvelope.Text.Extender
import ConsensusEnvelope.Text.Unprintable

/-!
# Quoted characters and texts

Messages show a piece of input between quotes, with everything that would not
show as itself written out: the quote and the backslash behind a backslash, four
controls by a letter or a zero, and any other character that is unprintable or
attaches itself to its neighbour by its code point in hexadecimal digits.
-/

namespace ConsensusEnvelope.Text

/-- A code point in the fewest lower-case hexadecimal digits. -/
def codeDigits (c : Char) : List Char :=
  Nat.toDigits 16 c.toNat

/-- A character as it stands between quotes of the given kind. -/
def escaped (quote c : Char) : List Char :=
  match c with
  | '\x00' => ['\\', '0']
  | '\t' => ['\\', 't']
  | '\n' => ['\\', 'n']
  | '\r' => ['\\', 'r']
  | c =>
    if c = '\\' ∨ c = quote then ['\\', c]
    else if isExtender c || isUnprintable c then
      ['\\', 'u', '\x7b'] ++ codeDigits c ++ ['\x7d']
    else [c]

/-- A character between single quotes. -/
def quoteChar (c : Char) : String :=
  String.ofList ('\'' :: escaped '\'' c ++ ['\''])

/-- A text between double quotes. -/
def quote (text : String) : String :=
  String.ofList ('"' :: text.toList.flatMap (escaped '"') ++ ['"'])

end ConsensusEnvelope.Text
