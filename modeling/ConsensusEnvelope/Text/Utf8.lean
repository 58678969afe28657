import ConsensusEnvelope.Bytes.Basic

/-!
# UTF-8

A text is written as the bytes of its characters, one to four for each. Reading
goes the other way in two steps. `pieces` cuts a byte string into characters and
into faults, where a fault is as long as the bytes that could still have begun a
character: the maximal part that no text contains. What to do with a fault is
then a matter of the caller: `decode` reports the first one with its position,
and `lossy` shows each as one replacement character.

The form is strict: no surrogates, nothing above U+10FFFF and no sequence longer
than needed.
-/

namespace ConsensusEnvelope.Utf8

/-- The bytes of a text. -/
def encode (text : String) : Bytes :=
  text.toByteArray.data.toList

/-- The bytes of a code point below U+110000. Surrogates, which no text holds,
get the three bytes that the scheme gives them. -/
def encodeCode (n : Nat) : Bytes :=
  if n < 0x80 then [UInt8.ofNat n]
  else if n < 0x800 then [UInt8.ofNat (n / 64 + 0xc0), UInt8.ofNat (n % 64 + 0x80)]
  else if n < 0x10000 then
    [UInt8.ofNat (n / 4096 + 0xe0), UInt8.ofNat (n / 64 % 64 + 0x80), UInt8.ofNat (n % 64 + 0x80)]
  else
    [UInt8.ofNat (n / 262144 + 0xf0), UInt8.ofNat (n / 4096 % 64 + 0x80),
      UInt8.ofNat (n / 64 % 64 + 0x80), UInt8.ofNat (n % 64 + 0x80)]

/-- What a byte string holds at one place. -/
inductive Piece where
  /-- A character of `width` bytes. -/
  | char (c : Char) (width : Nat)
  /-- `width` bytes that begin no character, whatever follows. -/
  | invalid (width : Nat)
  /-- A character that the end of the bytes cuts off. -/
  | incomplete
  deriving DecidableEq

/-- What the first byte of a character of two or more bytes says: how many bytes
follow, the range that the next of them must lie in, and the leading bits of the
code point. The narrow ranges keep out long forms, surrogates and what is too
large. -/
structure Lead where
  more : Nat
  low : Nat
  high : Nat
  code : Nat

/-- What a first byte says, if a character of two or more bytes starts with
it. -/
def lead? (b : Nat) : Option Lead :=
  if b < 0xc2 then none
  else if b < 0xe0 then some ⟨1, 0x80, 0xbf, b - 0xc0⟩
  else if b = 0xe0 then some ⟨2, 0xa0, 0xbf, 0⟩
  else if b = 0xed then some ⟨2, 0x80, 0x9f, 0xd⟩
  else if b < 0xf0 then some ⟨2, 0x80, 0xbf, b - 0xe0⟩
  else if b = 0xf0 then some ⟨3, 0x90, 0xbf, 0⟩
  else if b < 0xf4 then some ⟨3, 0x80, 0xbf, b - 0xf0⟩
  else if b = 0xf4 then some ⟨3, 0x80, 0x8f, 4⟩
  else none

/-- Reads `more` continuation bytes, the next of them between `low` and `high`.
`code` is the number read so far, from `seen` bytes. -/
def follow : (more low high code seen : Nat) → Bytes → Piece
  | 0, _, _, code, seen, _ => .char (Char.ofNat code) seen
  | _ + 1, _, _, _, _, [] => .incomplete
  | more + 1, low, high, code, seen, b :: rest =>
    if low ≤ b.toNat ∧ b.toNat ≤ high then
      follow more 0x80 0xbf (code * 64 + (b.toNat - 0x80)) (seen + 1) rest
    else .invalid seen

/-- The piece at the front of a byte string that starts with `b`. -/
def front (b : UInt8) (rest : Bytes) : Piece :=
  if b.toNat < 0x80 then .char (Char.ofNat b.toNat) 1
  else
    match lead? b.toNat with
    | none => .invalid 1
    | some lead => follow lead.more lead.low lead.high lead.code 1 rest

/-- Cuts a byte string into pieces, in front of those already found. The first
`skip` bytes belong to the piece found last. -/
def piecesFrom : (skip : Nat) → List Piece → Bytes → List Piece
  | _, found, [] => found.reverse
  | skip + 1, found, _ :: rest => piecesFrom skip found rest
  | 0, found, b :: rest =>
    match front b rest with
    | .char c width => piecesFrom (width - 1) (.char c width :: found) rest
    | .invalid width => piecesFrom (width - 1) (.invalid width :: found) rest
    | .incomplete => (Piece.incomplete :: found).reverse

/-- The pieces of a byte string, first to last. -/
def pieces (bytes : Bytes) : List Piece :=
  piecesFrom 0 [] bytes

/-- Why a byte string is no text, and from which byte on. -/
inductive Fault where
  | invalid (width index : Nat)
  | incomplete (index : Nat)
  deriving DecidableEq, Repr

/-- The fault in words. -/
def Fault.message : Fault → String
  | .invalid width index => s!"invalid utf-8 sequence of {width} bytes from index {index}"
  | .incomplete index => s!"incomplete utf-8 byte sequence from index {index}"

/-- The characters of some pieces, behind those already found; `index` is where
the pieces start. -/
def charsFrom : (index : Nat) → (found : List Char) → List Piece → Except Fault (List Char)
  | _, found, [] => .ok found.reverse
  | index, found, .char c width :: rest => charsFrom (index + width) (c :: found) rest
  | index, _, .invalid width :: _ => .error (.invalid width index)
  | index, _, .incomplete :: _ => .error (.incomplete index)

/-- Reads a byte string as text, or reports the first fault. -/
def decode (bytes : Bytes) : Except Fault String :=
  (charsFrom 0 [] (pieces bytes)).map String.ofList

/-- Reads a byte string as text, if it is one. -/
def decode? (bytes : Bytes) : Option String :=
  (decode bytes).toOption

/-- The character that shows a piece; a fault is shown by U+FFFD. -/
def Piece.shown : Piece → Char
  | .char c _ => c
  | .invalid _ => '\uFFFD'
  | .incomplete => '\uFFFD'

/-- Reads a byte string as text, with one replacement character for each
fault. -/
def lossy (bytes : Bytes) : String :=
  String.ofList ((pieces bytes).map Piece.shown)

end ConsensusEnvelope.Utf8
