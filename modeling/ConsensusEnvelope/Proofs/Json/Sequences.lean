import ConsensusEnvelope.Json.Document
import ConsensusEnvelope.Proofs.Frame
import ConsensusEnvelope.Proofs.Json.Numerals
import ConsensusEnvelope.Proofs.Messages

/-!
# Arrays of numbers are read back

Byte strings are written as arrays of their bytes, and three readers take them. They differ
in what they do with a length: the one for byte strings takes any, the one for axes counts
and keeps the first 32, and the one for coordinates takes 64 and looks for the end. Where
the elements start and end is decided in the same way for all of them, by the comma in
front of every element but the first. So the array is described by what is left of it, with
or without an element in front (`separated`), and each reader goes through it by an
induction on that. The fuel of the loops is the length of the text, which is at least the
number of elements, because no element is written as nothing.
-/

namespace ConsensusEnvelope

namespace Json

/-! ## The written form -/

/-- Texts with commas between them, the first of them behind a comma if there has been one
before it. -/
def separated : (first : Bool) → List Bytes → Bytes
  | _, [] => []
  | first, t :: ts => (if first then [] else [0x2c]) ++ t ++ separated false ts

theorem encode_intercalate (texts : List String) :
    Utf8.encode (",".intercalate texts) = separated true (texts.map Utf8.encode) := by
  induction texts with
  | nil => rfl
  | cons t ts ih =>
      cases ts with
      | nil =>
          rw [String.intercalate_singleton, List.map_cons, List.map_nil, separated, separated,
            if_pos rfl, List.nil_append, List.append_nil]
      | cons t' ts =>
          have hcomma : Utf8.encode "," = [0x2c] := rfl
          have hnext : separated true ((t :: t' :: ts).map Utf8.encode) =
              Utf8.encode t ++ 0x2c :: separated true ((t' :: ts).map Utf8.encode) := rfl
          rw [String.intercalate_cons_cons, Utf8.encode_append, Utf8.encode_append, ih, hcomma,
            hnext, List.append_assoc, List.singleton_append]

/-- The written form of an array of bytes. -/
def byteArray (bytes : Bytes) : Bytes :=
  0x5b :: (separated true (bytes.map fun b => numeral b.toNat) ++ [0x5d])

theorem encode_writeBytes (bytes : Bytes) : Utf8.encode (writeBytes bytes) = byteArray bytes := by
  have hopen : Utf8.encode "[" = [0x5b] := rfl
  have hclose : Utf8.encode "]" = [0x5d] := rfl
  rw [writeBytes, Utf8.encode_append, Utf8.encode_append, encode_intercalate, hopen, hclose,
    List.map_map, List.append_assoc, List.singleton_append]
  rfl

/-- No text that opens an element is empty. -/
theorem length_le_length_separated {α : Type} {text : α → Bytes} (h : ∀ a, Opens (text a))
    (first : Bool) (as : List α) : as.length ≤ (separated first (as.map text)).length := by
  induction as generalizing first with
  | nil => exact Nat.zero_le _
  | cons a as ih =>
      obtain ⟨b, tail, htext, -, -⟩ := h a
      have hrest := ih false
      rw [List.map_cons, separated, htext, List.length_append, List.length_append,
        List.length_cons, List.length_cons]
      omega

theorem ends_separated (ts : List Bytes) {close : UInt8} (h : close = 0x5d ∨ close = 0x7d)
    (rest : Bytes) : Ends (separated false ts ++ close :: rest) := by
  cases ts with
  | nil => exact ends_cons (.inr h) rest
  | cons t ts => exact ends_cons (.inl rfl) _

/-! ## Going through an array -/

theorem nextElement_separated {t : Bytes} (h : Opens t) (first : Bool) (ts : List Bytes)
    (rest : Bytes) :
    nextElement first (separated first (t :: ts) ++ rest) =
      .ok (.element (t ++ (separated false ts ++ rest))) := by
  obtain ⟨b, tail, rfl, hblank, hclose⟩ := h
  cases first with
  | true =>
      rw [separated, if_pos rfl, List.nil_append, List.append_assoc, List.cons_append,
        nextElement, skipBlanks_of_not_blank hblank]
      dsimp only
      rw [if_neg hclose, if_pos rfl]
  | false =>
      rw [separated, if_neg Bool.false_ne_true, List.append_assoc, List.append_assoc,
        List.singleton_append, nextElement, skipBlanks_of_not_blank (by decide)]
      dsimp only
      rw [if_neg (by decide), if_neg Bool.false_ne_true, if_pos rfl, List.cons_append,
        skipBlanks_of_not_blank hblank]
      dsimp only
      rw [if_neg hclose]

section Fold

variable {α σ : Type} {element : Reader α} {text : α → Bytes}

/-- All elements are pushed, in their order. -/
theorem foldElements_separated (htakes : ∀ a, Takes element (text a) a)
    (hopens : ∀ a, Opens (text a)) (push : σ → α → σ) {as : List α} {fuel : Nat}
    (hfuel : as.length < fuel) (first : Bool) (state : σ) (rest : Bytes) :
    foldElements element push fuel first state
        (separated first (as.map text) ++ 0x5d :: rest) =
      .ok (as.foldl push state, rest) := by
  induction as generalizing fuel first state with
  | nil =>
      obtain ⟨fuel, rfl⟩ := Nat.exists_eq_succ_of_ne_zero (Nat.ne_of_gt hfuel)
      rfl
  | cons a as ih =>
      obtain ⟨fuel, rfl⟩ := Nat.exists_eq_succ_of_ne_zero (Nat.ne_of_gt (Nat.zero_lt_of_lt hfuel))
      rw [List.map_cons, foldElements, nextElement_separated (hopens a), Except.ok_bind]
      dsimp only
      rw [htakes a _ (ends_separated _ (.inl rfl) rest), Except.ok_bind]
      exact ih (Nat.lt_of_succ_lt_succ hfuel) false (push state a)

theorem foldArray_separated (htakes : ∀ a, Takes element (text a) a)
    (hopens : ∀ a, Opens (text a)) (push : σ → α → σ) (as : List α) (state : σ)
    (rest : Bytes) :
    foldArray element push state (separated true (as.map text) ++ 0x5d :: rest) =
      .ok (as.foldl push state, rest) := by
  have hlen := length_le_length_separated hopens true as
  refine foldElements_separated htakes hopens push ?_ true state rest
  rw [List.length_append]
  omega

end Fold

/-! ## The three readers -/

theorem foldArray_bytes {σ : Type} (push : σ → UInt8 → σ) (bytes : Bytes) (state : σ)
    (rest : Bytes) :
    foldArray readByte push state
        (separated true (bytes.map fun b => numeral b.toNat) ++ 0x5d :: rest) =
      .ok (bytes.foldl push state, rest) :=
  foldArray_separated takes_byte (fun b => opens_numeral b.toNat) push bytes state rest

/-- A reader of arrays starts behind the opening bracket. -/
theorem skipBlanks_byteArray (bytes : Bytes) (rest : Bytes) :
    skipBlanks (byteArray bytes ++ rest) =
      0x5b :: (separated true (bytes.map fun b => numeral b.toNat) ++ 0x5d :: rest) := by
  rw [byteArray, List.cons_append, List.append_assoc, List.singleton_append]
  exact skipBlanks_of_not_blank (by decide) _

theorem takes_bytes (bytes : Bytes) : Takes readBytes (byteArray bytes) bytes := by
  intro rest _
  rw [readBytes, skipBlanks_byteArray]
  dsimp only
  rw [if_pos rfl, foldArray_bytes, Except.ok_bind]
  dsimp only
  rw [List.foldl_flip_cons_eq_append', List.append_nil, List.reverse_reverse]
  rfl

end Json

namespace Axis

/-- What has arrived after some more bytes: the first 32 of all are kept, and all are
counted. -/
theorem Intake.foldl_push (intake : Intake) (bytes : Bytes) :
    bytes.foldl push intake =
      ⟨(bytes.take (32 - intake.seen)).reverse ++ intake.kept, intake.seen + bytes.length⟩ := by
  induction bytes generalizing intake with
  | nil => rw [List.foldl_nil, List.take_nil]; rfl
  | cons b bytes ih =>
      rw [List.foldl_cons, ih, push, List.length_cons, Nat.add_right_comm, Nat.add_assoc]
      dsimp only
      split
      · next hroom =>
          have hsub : 32 - intake.seen = 32 - (intake.seen + 1) + 1 := by omega
          rw [hsub, List.take_succ_cons, List.reverse_cons, List.append_assoc,
            List.singleton_append]
      · next hfull =>
          have hsub : 32 - intake.seen = 0 := by omega
          have hsub' : 32 - (intake.seen + 1) = 0 := by omega
          rw [hsub, hsub', List.take_zero, List.take_zero]

/-- Bytes that arrive one at a time make up the axis that they are read as together. -/
theorem Intake.finish_foldl_push (bytes : Bytes) :
    (bytes.foldl push .empty).finish = decode bytes := by
  rw [foldl_push, empty, Nat.sub_zero, Nat.zero_add, List.append_nil, finish]
  dsimp only
  split
  · next hwide => rw [decode, dif_neg (Nat.not_le.mpr hwide)]
  · next hfits => rw [List.reverse_reverse, List.take_of_length_le (Nat.not_lt.mp hfits)]

end Axis

namespace Json

theorem takes_axis (axis : Axis) : Takes readAxis (byteArray axis.bytes) axis := by
  intro rest _
  rw [readAxis, skipBlanks_byteArray]
  dsimp only
  rw [if_pos rfl, foldArray_bytes, Except.ok_bind]
  dsimp only
  rw [Axis.Intake.finish_foldl_push, Axis.decode_bytes]
  rfl

theorem readCoordinateBytes_separated (bytes found : Bytes) (rest : Bytes) :
    readCoordinateBytes bytes.length found
        (separated found.isEmpty (bytes.map fun b => numeral b.toNat) ++ 0x5d :: rest) =
      .ok (found.reverse ++ bytes, rest) := by
  induction bytes generalizing found with
  | nil =>
      rw [List.append_nil]
      rfl
  | cons b bytes ih =>
      have hends := ends_separated (bytes.map fun b => numeral b.toNat) (.inl rfl) rest
      rw [List.length_cons, List.map_cons, readCoordinateBytes,
        nextElement_separated (opens_numeral b.toNat), Except.ok_bind]
      dsimp only
      rw [takes_byte b _ hends, Except.ok_bind]
      have hrest := ih (b :: found)
      rw [List.reverse_cons, List.append_assoc, List.singleton_append] at hrest
      exact hrest

theorem takes_coordinate (c : Coordinate) : Takes readCoordinate (byteArray c.bytes) c := by
  intro rest _
  have hread := readCoordinateBytes_separated c.bytes [] rest
  have hof : coordinateOf c.bytes = .ok c := by
    rw [coordinateOf, c.ofBytes?_bytes]
  rw [c.length_bytes, ← Coordinate.width, List.isEmpty_nil, List.reverse_nil,
    List.nil_append] at hread
  rw [readCoordinate, skipBlanks_byteArray]
  dsimp only
  rw [if_pos rfl, hread, Except.ok_bind]
  dsimp only
  rw [hof]
  rfl

end Json

end ConsensusEnvelope
