import ConsensusEnvelope.Bytes.Hex
import ConsensusEnvelope.Proofs.Utf8
import Mathlib.Data.List.Basic

/-!
# Hexadecimal digits are read back

The digits are characters of one byte each, so a text of digits is read byte by byte.
There are sixteen of them, and each is read as the number that it was written for. Two
of them make up a byte, because a byte is sixteen times its high half and its low half.

Reading also accepts the capital letters, and nothing else: a text is read as a byte string
exactly if it has the digits of that byte string in lower case. What is no digit does not
become one by being taken apart, because all bytes of a character that has several of them
are outside of ASCII.
-/

namespace ConsensusEnvelope

namespace Text

theorem forall_ascii (P : Char → Prop) (h : ∀ m < 128, P (Char.ofNat m)) (c : Char)
    (hc : c.toNat < 128) : P c := by
  have hP := h c.toNat hc
  rw [Char.ofNat_toNat] at hP
  exact hP

theorem toLower_eq_self {c : Char} (h : c.toNat < 65 ∨ 90 < c.toNat) : c.toLower = c := by
  refine dif_neg fun hrange => ?_
  have hlow : 65 ≤ c.toNat := UInt32.le_iff_toNat_le.mp hrange.1
  have hhigh : c.toNat ≤ 90 := UInt32.le_iff_toNat_le.mp hrange.2
  omega

theorem toUpper_eq_self {c : Char} (h : c.toNat < 97 ∨ 122 < c.toNat) : c.toUpper = c := by
  refine dif_neg fun hrange => ?_
  have hlow : 97 ≤ c.toNat := UInt32.le_iff_toNat_le.mp hrange.1
  have hhigh : c.toNat ≤ 122 := UInt32.le_iff_toNat_le.mp hrange.2
  omega

theorem toLower_toUpper (c : Char) : c.toUpper.toLower = c.toLower := by
  rcases Nat.lt_or_ge c.toNat 128 with hc | hc
  · have hascii := forall_ascii fun c => c.toUpper.toLower = c.toLower
    exact hascii (by decide) c hc
  · rw [toUpper_eq_self (by omega)]

theorem toList_toLower (text : String) : text.toLower.toList = text.toList.map Char.toLower :=
  String.toList_map

theorem toList_toUpper (text : String) : text.toUpper.toList = text.toList.map Char.toUpper :=
  String.toList_map

theorem length_toLower (text : String) : text.toLower.length = text.length := by
  rw [← String.length_toList, toList_toLower, List.length_map, String.length_toList]

theorem toUpper_append (a b : String) : (a ++ b).toUpper = a.toUpper ++ b.toUpper := by
  rw [← String.toList_inj, String.toList_append, toList_toUpper, toList_toUpper, toList_toUpper,
    String.toList_append, List.map_append]

end Text

namespace Hex

/-- The numbers that the digits of a byte string stand for. -/
def nibbles (bytes : Bytes) : List Nat :=
  bytes.flatMap fun b => [b.toNat / 16, b.toNat % 16]

/-- The byte of a digit. -/
def digitByte (n : Nat) : UInt8 :=
  UInt8.ofNat (digit n).toNat

variable {n : Nat}

theorem utf8EncodeChar_digit (h : n < 16) : String.utf8EncodeChar (digit n) = [digitByte n] := by
  revert n
  decide

theorem nibble?_digitByte (h : n < 16) : nibble? (digitByte n) = some n := by
  revert n
  decide

theorem digit_mem (h : n < 16) : digit n ∈ "0123456789abcdef".toList := by
  revert n
  decide

theorem nibbles_cons (b : UInt8) (bytes : Bytes) :
    nibbles (b :: bytes) = b.toNat / 16 :: b.toNat % 16 :: nibbles bytes := rfl

theorem length_nibbles (bytes : Bytes) : (nibbles bytes).length = 2 * bytes.length := by
  induction bytes with
  | nil => rfl
  | cons b rest ih =>
      rw [nibbles_cons, List.length_cons, List.length_cons, ih, List.length_cons]
      omega

theorem lt_of_mem_nibbles {bytes : Bytes} (h : n ∈ nibbles bytes) : n < 16 := by
  obtain ⟨b, -, hn⟩ := List.mem_flatMap.mp h
  have hb := b.toNat_lt
  simp only [List.mem_cons, List.not_mem_nil, or_false] at hn
  omega

theorem chars_eq (bytes : Bytes) : chars bytes = (nibbles bytes).map digit := by
  rw [nibbles, List.map_flatMap]
  rfl

theorem chars_append (a b : Bytes) : chars (a ++ b) = chars a ++ chars b :=
  List.flatMap_append

theorem length_chars (bytes : Bytes) : (chars bytes).length = 2 * bytes.length := by
  rw [chars_eq, List.length_map, length_nibbles]

theorem toList_encode (bytes : Bytes) : (encode bytes).toList = chars bytes :=
  String.toList_ofList

/-- The digits of a text as bytes. -/
theorem utf8_encode (bytes : Bytes) :
    Utf8.encode (encode bytes) = (nibbles bytes).map digitByte := by
  rw [Utf8.encode_eq_flatMap, toList_encode, chars_eq, List.flatMap_map,
    List.map_eq_flatMap]
  exact List.flatMap_congr fun n hn => utf8EncodeChar_digit (lt_of_mem_nibbles hn)

theorem length_encode (bytes : Bytes) : (encode bytes).length = 2 * bytes.length := by
  rw [encode, String.length_ofList, length_chars]

theorem mem_digits_of_mem_encode {bytes : Bytes} {c : Char} (h : c ∈ (encode bytes).toList) :
    c ∈ "0123456789abcdef".toList := by
  rw [toList_encode, chars_eq, List.mem_map] at h
  obtain ⟨n, hn, rfl⟩ := h
  exact digit_mem (lt_of_mem_nibbles hn)

/-! ## Which bytes are read -/

theorem nibble?_lt {b : UInt8} (h : nibble? b = some n) : n < 16 := by
  simp only [nibble?] at h
  split at h
  · cases h
    omega
  split at h
  · cases h
    omega
  split at h
  · cases h
    omega
  · cases h

theorem nibble?_of_le {b : UInt8} (h : 128 ≤ b.toNat) : nibble? b = none := by
  rw [nibble?, if_neg (by omega), if_neg (by omega), if_neg (by omega)]

theorem decodeFrom_digits {bytes text : Bytes} (h : text.map nibble? = (nibbles bytes).map some)
    (index : Nat) (found : Bytes) :
    decodeFrom index found text = .ok (found.reverse ++ bytes) := by
  induction bytes generalizing text index found with
  | nil =>
      rw [List.map_eq_nil_iff.mp h, decodeFrom, List.append_nil]
  | cons b rest ih =>
      rw [nibbles_cons, List.map_cons, List.map_cons] at h
      obtain ⟨high, text, rfl, hhigh, h⟩ := List.map_eq_cons_iff.mp h
      obtain ⟨low, text, rfl, hlow, h⟩ := List.map_eq_cons_iff.mp h
      have hbyte : 16 * (b.toNat / 16) + b.toNat % 16 = b.toNat := by omega
      rw [decodeFrom, hhigh, hlow]
      dsimp only
      rw [hbyte, UInt8.ofNat_toNat, ih h, List.reverse_cons, List.append_assoc,
        List.singleton_append]

theorem digits_of_decodeFrom {index : Nat} {found text bytes : Bytes}
    (h : decodeFrom index found text = .ok bytes) :
    ∃ rest, bytes = found.reverse ++ rest ∧ text.map nibble? = (nibbles rest).map some := by
  match text with
  | [] =>
      cases h
      exact ⟨[], (List.append_nil _).symm, rfl⟩
  | [_] => cases h
  | a :: b :: text =>
      rw [decodeFrom] at h
      split at h
      · cases h
      · cases h
      · next high low hhigh hlow =>
          have hhigh' := nibble?_lt hhigh
          have hlow' := nibble?_lt hlow
          obtain ⟨rest, rfl, hrest⟩ := digits_of_decodeFrom h
          refine ⟨UInt8.ofNat (16 * high + low) :: rest, ?_, ?_⟩
          · rw [List.reverse_cons, List.append_assoc, List.singleton_append]
          · have hdiv : (16 * high + low) / 16 = high := by omega
            have hmod : (16 * high + low) % 16 = low := by omega
            rw [nibbles_cons, Utf8.toNat_ofNat_of_lt (by omega), hdiv, hmod, List.map_cons,
              List.map_cons, hhigh, hlow, hrest, List.map_cons, List.map_cons]

/-- A byte string is read from its digits, in either case, and from nothing else. -/
theorem decode_eq_ok_iff {text bytes : Bytes} :
    decode text = .ok bytes ↔ text.map nibble? = (nibbles bytes).map some := by
  rw [decode]
  refine ⟨fun h => ?_, fun h => ?_⟩
  · split at h
    · cases h
    · obtain ⟨rest, rfl, hrest⟩ := digits_of_decodeFrom h
      exact hrest
  · have hlen := congrArg List.length h
    rw [List.length_map, List.length_map, length_nibbles] at hlen
    rw [if_neg (by omega), decodeFrom_digits h]
    rfl

/-- The digits of a byte string are read as that byte string. -/
theorem decode_encode (bytes : Bytes) : decode (Utf8.encode (encode bytes)) = .ok bytes := by
  rw [decode_eq_ok_iff, utf8_encode, List.map_map]
  exact List.map_congr_left fun n hn => nibble?_digitByte (lt_of_mem_nibbles hn)

theorem encode_inj {a b : Bytes} (h : encode a = encode b) : a = b := by
  have hread := decode_encode a
  rw [h, decode_encode] at hread
  exact (Except.ok.inj hread).symm

/-! ## Which texts are read -/

theorem digit_toNat_lt (h : n < 16) : (digit n).toNat < 128 := by
  revert n
  decide

theorem toLower_eq_digit_iff {c : Char} (hc : c.toNat < 128) (hn : n < 16) :
    c.toLower = digit n ↔ nibble? (UInt8.ofNat c.toNat) = some n := by
  have hascii := Text.forall_ascii fun c =>
    ∀ n < 16, c.toLower = digit n ↔ nibble? (UInt8.ofNat c.toNat) = some n
  exact hascii (by decide) c hc n hn

theorem toLower_ne_digit {c : Char} (hc : 128 ≤ c.toNat) (hn : n < 16) : c.toLower ≠ digit n := by
  intro h
  have hlt := digit_toNat_lt hn
  rw [← h, Text.toLower_eq_self (by omega)] at hlt
  omega

theorem exists_nibble?_eq_none {c : Char} (hc : 128 ≤ c.toNat) :
    ∃ b tail, String.utf8EncodeChar c = b :: tail ∧ nibble? b = none := by
  obtain ⟨b, tail, hbytes, -⟩ := Utf8.front_utf8EncodeChar c []
  have hb : b ∈ String.utf8EncodeChar c := by
    rw [hbytes]
    exact List.mem_cons_self
  exact ⟨b, tail, hbytes, nibble?_of_le (Utf8.le_of_mem_utf8EncodeChar hc b hb)⟩

/-- A character of several bytes is a digit neither as a whole nor in its bytes. -/
theorem map_nibble?_eq_iff (cs : List Char) {ns : List Nat} (hns : ∀ n ∈ ns, n < 16) :
    (cs.flatMap String.utf8EncodeChar).map nibble? = ns.map some ↔
      cs.map Char.toLower = ns.map digit := by
  induction cs generalizing ns with
  | nil =>
      cases ns with
      | nil => exact iff_of_true rfl rfl
      | cons n ns => exact iff_of_false nofun nofun
  | cons c cs ih =>
      cases ns with
      | nil =>
          obtain ⟨b, tail, hbytes, -⟩ := Utf8.front_utf8EncodeChar c []
          rw [List.flatMap_cons, hbytes]
          exact iff_of_false nofun nofun
      | cons n ns =>
          obtain ⟨hn, hns⟩ := List.forall_mem_cons.mp hns
          rw [List.flatMap_cons, List.map_append, List.map_cons, List.map_cons, List.map_cons,
            List.cons.injEq]
          rcases Nat.lt_or_ge c.toNat 128 with hc | hc
          · rw [Utf8.utf8EncodeChar_of_lt hc, List.map_singleton, List.singleton_append,
              List.cons.injEq, toLower_eq_digit_iff hc hn, ih hns]
          · obtain ⟨b, tail, hbytes, hb⟩ := exists_nibble?_eq_none hc
            rw [hbytes, List.map_cons, hb]
            exact iff_of_false nofun fun h => toLower_ne_digit hc hn h.1

/-- A text is read as a byte string exactly if it has its digits in lower case. -/
theorem decode_utf8_encode_eq_ok_iff {text : String} {bytes : Bytes} :
    decode (Utf8.encode text) = .ok bytes ↔ text.toLower = encode bytes := by
  rw [decode_eq_ok_iff, Utf8.encode_eq_flatMap, map_nibble?_eq_iff _ fun n => lt_of_mem_nibbles,
    ← chars_eq, ← String.toList_inj, Text.toList_toLower, toList_encode]

end Hex

end ConsensusEnvelope
