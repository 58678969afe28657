import ConsensusEnvelope.Binary.Fault
import ConsensusEnvelope.Binary.Options

/-!
# Binary formats

A format writes values of a type as bytes and reads them back from the front of
a byte string. Formats are built from a few shapes:

* numbers, in the byte order and the form that the options say;
* strings and lists, behind their length, which is a number of eight bytes;
* optional values, behind a byte that says whether there is one;
* one format after another.

No shape looks beyond its own bytes, so formats can be put one after another
without separators. How the values of a type are written is a format for every choice
of options, and `Options.encode` and `Options.decode` make the choice.
-/

namespace ConsensusEnvelope.Binary

/-- Reads a value from the front of a byte string, and says what is left. -/
abbrev Reader (α : Type) := Bytes → Except Fault (α × Bytes)

/-- A way to write values of a type and to read them back. -/
structure Format (α : Type) where
  write : α → Bytes
  read : Reader α

/-- Takes exactly `n` bytes, or fails with the given fault. -/
def takeBytes (fault : Fault) (n : Nat) : Reader Bytes := fun bytes =>
  let taken := bytes.take n
  if taken.length < n then .error fault else .ok (taken, bytes.drop n)

/-- Reads a given number of values behind those already found, last one
first. -/
def readMany {α : Type} (read : Reader α) : (count : Nat) → (found : List α) → Reader (List α)
  | 0, found, bytes => .ok (found.reverse, bytes)
  | count + 1, found, bytes => do
    let (a, rest) ← read bytes
    readMany read count (a :: found) rest

namespace Format

variable {α β : Type}

/-- Reads a value that takes up all the bytes. -/
def decode (format : Format α) (bytes : Bytes) : Except Fault α := do
  let (a, rest) ← format.read bytes
  if rest.isEmpty then return a else throw .trailingBytes

/-- Reads a value, whatever is behind it. -/
def decodeFront (format : Format α) (bytes : Bytes) : Except Fault α := do
  let (a, _) ← format.read bytes
  return a

/-- The format of a type whose values correspond to those of another. -/
def map (format : Format α) (into : β → α) (back : α → β) : Format β where
  write b := format.write (into b)
  read bytes := do
    let (a, rest) ← format.read bytes
    return (back a, rest)

/-- The format of a type whose values correspond to some of those of another. -/
def filterMap (format : Format α) (into : β → α) (back : α → Except Fault β) : Format β where
  write b := format.write (into b)
  read bytes := do
    let (a, rest) ← format.read bytes
    return (← back a, rest)

/-- One value after another. -/
def pair (first : Format α) (second : Format β) : Format (α × β) where
  write p := first.write p.1 ++ second.write p.2
  read bytes := do
    let (a, rest) ← first.read bytes
    let (b, rest) ← second.read rest
    return ((a, b), rest)

/-- A number in a given number of bytes. -/
def fixed (order : ByteOrder) (width : Nat) : Format Nat where
  write n := order.bytes width n
  read bytes := do
    let (taken, rest) ← takeBytes .endOfInput width bytes
    return (order.value taken, rest)

/-- A number in the bytes that it needs: a small one is a byte, and any other stands
behind a byte that says whether two, four or eight follow. -/
def varying (order : ByteOrder) : Format Nat where
  write n :=
    if n < 251 then [UInt8.ofNat n]
    else if n < UInt16.size then 251 :: order.bytes 2 n
    else if n < UInt32.size then 252 :: order.bytes 4 n
    else 253 :: order.bytes 8 n
  read
    | [] => .error .endOfInput
    | head :: rest =>
      if head < 251 then .ok (head.toNat, rest)
      else if head = 251 then (fixed order 2).read rest
      else if head = 252 then (fixed order 4).read rest
      else if head = 253 then (fixed order 8).read rest
      else .error (.numberHead head)

/-- A number of a type of the given width. -/
def number (o : Options) (width : Nat) : Format Nat :=
  match o.numbers with
  | .fixed => fixed o.order width
  | .varying => (varying o.order).filterMap id fun n =>
    if n >>> (8 * width) = 0 then .ok n else .error (.numberRange n width)

/-- A byte, whatever the options. -/
def u8 : Format UInt8 where
  write b := [b]
  read
    | [] => .error .endOfInput
    | b :: rest => .ok (b, rest)

/-- An unsigned number of 16 bits. -/
def u16 (o : Options) : Format UInt16 :=
  (number o 2).map UInt16.toNat UInt16.ofNat

/-- An unsigned number of 32 bits. -/
def u32 (o : Options) : Format UInt32 :=
  (number o 4).map UInt32.toNat UInt32.ofNat

/-- An unsigned number of 64 bits. -/
def u64 (o : Options) : Format UInt64 :=
  (number o 8).map UInt64.toNat UInt64.ofNat

/-- A signed number of 8 bits in two's complement. -/
def i8 : Format Int8 :=
  u8.map Int8.toUInt8 UInt8.toInt8

/-- The numbers 0, -1, 1, -2, … counted from zero, so that few bytes do for a number that is
close to zero on either side. -/
def zigzag (n : Int64) : UInt64 :=
  if n < 0 then ~~~n.toUInt64 * 2 + 1 else n.toUInt64 * 2

/-- The number that is counted at a place. -/
def unzigzag (n : UInt64) : Int64 :=
  if n % 2 = 0 then (n / 2).toInt64 else (~~~(n / 2)).toInt64

/-- A signed number of 64 bits: in two's complement where it takes up all its bytes. -/
def i64 (o : Options) : Format Int64 :=
  match o.numbers with
  | .fixed => (u64 o).map Int64.toUInt64 UInt64.toInt64
  | .varying => (u64 o).map zigzag unzigzag

/-- A truth value: one byte, zero or one. -/
def bool : Format Bool :=
  u8.filterMap (fun b => if b then 1 else 0) fun byte =>
    if byte = 0 then .ok false else if byte = 1 then .ok true else .error (.flag byte)

/-- A character: the bytes of its UTF-8 form. -/
def char : Format Char where
  write c := String.utf8EncodeChar c
  read
    | [] => .error .endOfInput
    | b :: rest =>
      match Utf8.front b rest with
      | .char c width => .ok (c, rest.drop (width - 1))
      | _ => .error .character

/-- A fixed number of bytes, without a length in front. -/
def block (width : Nat) : Format (Vector UInt8 width) where
  write v := v.toList
  read bytes :=
    if h : (bytes.take width).length = width then
      .ok (⟨(bytes.take width).toArray, by simpa using h⟩, bytes.drop width)
    else .error .endOfInput

/-- Bytes behind their number, each of them a value of its own: a missing one
ends the input. -/
def bytes (o : Options) : Format Bytes where
  write bs := (number o 8).write bs.length ++ bs
  read input := do
    let (count, rest) ← (number o 8).read input
    takeBytes .endOfInput count rest

/-- A byte string behind its length, taken as a whole. -/
def blob (o : Options) : Format Bytes where
  write bs := (number o 8).write bs.length ++ bs
  read input := do
    let (length, rest) ← (number o 8).read input
    takeBytes .endOfString length rest

/-- A text: the byte string of its UTF-8 form. -/
def text (o : Options) : Format String :=
  (blob o).filterMap Utf8.encode fun bs => (Utf8.decode bs).mapError .text

/-- A list behind its length. -/
def list (o : Options) (element : Format α) : Format (List α) where
  write as := (number o 8).write as.length ++ as.flatMap element.write
  read input := do
    let (count, rest) ← (number o 8).read input
    readMany element.read count [] rest

/-- An optional value: a byte zero, or a byte one and the value. -/
def option (value : Format α) : Format (Option α) where
  write
    | none => [0]
    | some a => 1 :: value.write a
  read
    | [] => .error .endOfInput
    | tag :: rest =>
      if tag = 0 then .ok (none, rest)
      else if tag = 1 then do
        let (a, rest) ← value.read rest
        return (some a, rest)
      else .error (.optionTag tag)

/-- The index of one of `count` alternatives, as a number of four bytes in front of its
fields. -/
def variant (o : Options) (count : Nat) : Format Nat :=
  (number o 4).filterMap id fun index =>
    if index < count then .ok index else .error (.variant index count)

end Format

namespace Options

variable {α : Type}

/-- The bytes of a value under these options. -/
def encode (o : Options) (form : Options → Format α) (a : α) : Bytes :=
  (form o).write a

/-- The value in some bytes under these options. -/
def decode (o : Options) (form : Options → Format α) (bytes : Bytes) : Except Fault α :=
  match o.trailing with
  | .refused => (form o).decode bytes
  | .ignored => (form o).decodeFront bytes

end Options

end ConsensusEnvelope.Binary
