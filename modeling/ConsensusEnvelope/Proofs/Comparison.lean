import ConsensusEnvelope.Proofs.Frame
import ConsensusEnvelope.Proofs.Hexadecimal

/-!
# Axes compare like the numbers that they stand for

An axis is compared byte by byte from the left, and so is the text of its digits. For
numerals of one width, in whatever base, that is the order of the numbers, because the
first digit in which two of them differ outweighs all digits behind it. For byte strings of
different lengths it is not; but reading an axis fills up the left with zeros, which changes
the length and not the value. So of the byte strings that are read as axes only the values
are left.
-/

namespace ConsensusEnvelope

theorem compare_add_left (n a b : Nat) : compare (n + a) (n + b) = compare a b := by
  simp only [Nat.compare_eq_ite_lt, Nat.add_lt_add_iff_left]

namespace Bytes

variable {s t : Bytes}

theorem value_cons_lt {b c : UInt8} (hlen : s.length = t.length) (h : b < c) :
    value (b :: s) < value (c :: t) := by
  have hs := value_lt s
  have hbc : (b.toNat + 1) * 256 ^ s.length ≤ c.toNat * 256 ^ s.length :=
    Nat.mul_le_mul_right _ h
  rw [Nat.add_mul] at hbc
  rw [value_cons, value_cons, ← hlen]
  omega

theorem compare_value_cons (b : UInt8) (hlen : s.length = t.length) :
    compare (value (b :: s)) (value (b :: t)) = compare (value s) (value t) := by
  rw [value_cons, value_cons, hlen, compare_add_left]

/-- Numerals of one width are in the order of their values. -/
theorem compare_eq_compare_value (hlen : s.length = t.length) :
    compare s t = compare s.value t.value := by
  induction s generalizing t with
  | nil =>
      rw [List.length_eq_zero_iff.mp hlen.symm]
      rfl
  | cons b s ih =>
      cases t with
      | nil => cases hlen
      | cons c t =>
          have htail : s.length = t.length := Nat.succ.inj hlen
          rw [List.compare_cons_cons]
          cases hhead : compare b c with
          | lt =>
              have hlt := value_cons_lt htail (Std.compare_eq_lt.mp hhead)
              rw [Nat.compare_eq_lt.mpr hlt]
              rfl
          | eq =>
              cases Std.compare_eq_iff_eq.mp hhead
              rw [compare_value_cons b htail, ← ih htail]
              rfl
          | gt =>
              have hlt := value_cons_lt htail.symm (Std.compare_eq_gt.mp hhead)
              rw [Nat.compare_eq_gt.mpr hlt]
              rfl

end Bytes

namespace Text

theorem compare_eq_lt_iff {cs ds : List Char} : compare cs ds = .lt ↔ cs < ds := by
  induction cs generalizing ds with
  | nil => cases ds <;> simp
  | cons c cs ih =>
      cases ds with
      | nil => simp
      | cons d ds =>
          have hhead : compare c d = .lt ↔ c < d := compareOfLessAndEq_eq_lt
          rw [List.compare_cons_cons, List.cons_lt_cons_iff, ← ih, ← hhead, Ordering.then_eq_lt,
            Std.compare_eq_iff_eq]

theorem compare_toList (a b : String) : compare a b = compare a.toList b.toList := by
  have hlt (a b : String) : compare a b = .lt ↔ compare a.toList b.toList = .lt := by
    rw [compare_eq_lt_iff, ← String.lt_iff]
    exact compareOfLessAndEq_eq_lt
  cases h : compare a.toList b.toList with
  | lt => exact (hlt a b).mpr h
  | eq =>
      rw [String.toList_inj.mp (Std.compare_eq_iff_eq.mp h)]
      exact Std.ReflCmp.compare_self
  | gt =>
      rw [Std.OrientedCmp.gt_iff_lt] at h ⊢
      exact (hlt b a).mpr h

end Text

namespace Hex

theorem compare_halves (b c : UInt8) :
    (compare (b.toNat / 16) (c.toNat / 16)).then (compare (b.toNat % 16) (c.toNat % 16)) =
      compare b c := by
  rw [UInt8.compare_eq_toNat_compare_toNat]
  cases hhigh : compare (b.toNat / 16) (c.toNat / 16) with
  | lt =>
      have hlt := Nat.compare_eq_lt.mp hhigh
      exact (Nat.compare_eq_lt.mpr (by omega)).symm
  | eq =>
      have heq := Nat.compare_eq_eq.mp hhigh
      have hlow : compare (16 * (b.toNat / 16) + b.toNat % 16)
          (16 * (c.toNat / 16) + c.toNat % 16) = compare (b.toNat % 16) (c.toNat % 16) := by
        rw [heq, compare_add_left]
      rw [Nat.div_add_mod, Nat.div_add_mod] at hlow
      exact hlow.symm
  | gt =>
      have hlt := Nat.compare_eq_gt.mp hhigh
      exact (Nat.compare_eq_gt.mpr (by omega)).symm

/-- Digits in the order of their numbers keep the order of the byte strings that they are
written for. -/
theorem compare_map_nibbles {α : Type} [Ord α] {f : Nat → α}
    (hf : ∀ n < 16, ∀ m < 16, compare (f n) (f m) = compare n m) (s t : Bytes) :
    compare ((nibbles s).map f) ((nibbles t).map f) = compare s t := by
  induction s generalizing t with
  | nil => cases t <;> rfl
  | cons b s ih =>
      cases t with
      | nil => rfl
      | cons c t =>
          have hb := b.toNat_lt
          have hc := c.toNat_lt
          simp only [nibbles_cons, List.map_cons, List.compare_cons_cons]
          rw [hf _ (by omega) _ (by omega), hf _ (by omega) _ (by omega), ih,
            ← Ordering.then_assoc, compare_halves]

theorem compare_digit : ∀ n < 16, ∀ m < 16, compare (digit n) (digit m) = compare n m := by
  decide

theorem compare_digitByte :
    ∀ n < 16, ∀ m < 16, compare (digitByte n) (digitByte m) = compare n m := by
  decide

theorem compare_utf8_encode (s t : Bytes) :
    compare (Utf8.encode (encode s)) (Utf8.encode (encode t)) = compare s t := by
  rw [utf8_encode, utf8_encode, compare_map_nibbles compare_digitByte]

theorem compare_encode (s t : Bytes) : compare (encode s) (encode t) = compare s t := by
  rw [Text.compare_toList, toList_encode, toList_encode, chars_eq, chars_eq,
    compare_map_nibbles compare_digit]

end Hex

namespace Axis

theorem value_of_decode {bytes : Bytes} {axis : Axis} (h : decode bytes = .ok axis) :
    axis.value = bytes.value := by
  rw [decode] at h
  split at h
  · cases h
    exact Bytes.value_leftpad 32 bytes
  · cases h

theorem decode_of_long {bytes : Bytes} (h : 32 < bytes.length) :
    decode bytes = .error ⟨bytes.length⟩ := by
  rw [decode, dif_neg (Nat.not_le.mpr h)]

theorem exists_decode_iff {bytes : Bytes} :
    (∃ axis, decode bytes = .ok axis) ↔ bytes.length ≤ 32 := by
  refine ⟨fun h => ?_, fun h => ⟨_, dif_pos h⟩⟩
  obtain ⟨axis, haxis⟩ := h
  by_contra hlong
  rw [decode_of_long (Nat.not_le.mp hlong)] at haxis
  cases haxis

theorem compare_eq (a b : Axis) : compare a b = compare a.value b.value :=
  Bytes.compare_eq_compare_value (a.length_bytes.trans b.length_bytes.symm)

theorem eq_iff_value_eq (a b : Axis) : a = b ↔ a.value = b.value := by
  refine ⟨congrArg value, fun h => ?_⟩
  exact Axis.ext (Bytes.eq_of_value_eq (a.length_bytes.trans b.length_bytes.symm) h)

/-- Axes are numbers of 256 bits. A byte string is read as an axis if it has at most 32
bytes, whatever they are, and otherwise refused with its length. The axis has the value of
the byte string, and its own bytes are read as itself. Two axes are equal, less or greater
as the values of the byte strings are that they were read from, and so are the texts of
their 64 digits, both as texts and as bytes. -/
theorem decoded_in_order :
    (∀ bytes : Bytes, ((∃ axis, decode bytes = .ok axis) ↔ bytes.length ≤ 32) ∧
      (32 < bytes.length → decode bytes = .error ⟨bytes.length⟩)) ∧
    (∀ bytes axis, decode bytes = .ok axis →
      axis.value = bytes.value ∧ decode axis.bytes = .ok axis ∧ axis.hex.length = 64 ∧
        ∀ c ∈ axis.hex.toList, c ∈ "0123456789abcdef".toList) ∧
    ∀ s t a b, decode s = .ok a → decode t = .ok b →
      (a = b ↔ s.value = t.value) ∧ compare a b = compare s.value t.value ∧
      compare a.hex b.hex = compare s.value t.value ∧
      compare (Utf8.encode a.hex) (Utf8.encode b.hex) = compare s.value t.value := by
  refine ⟨fun bytes => ⟨exists_decode_iff, decode_of_long⟩, fun bytes axis h => ?_,
    fun s t a b ha hb => ?_⟩
  · have hdigits : axis.hex.length = 64 := by
      rw [hex, Hex.length_encode, axis.length_bytes]
    exact ⟨value_of_decode h, decode_bytes axis, hdigits, fun _ => Hex.mem_digits_of_mem_encode⟩
  · have horder : compare a.bytes b.bytes = compare a.value b.value := compare_eq a b
    rw [eq_iff_value_eq, hex, hex, Hex.compare_encode, Hex.compare_utf8_encode, horder, compare_eq,
      value_of_decode ha, value_of_decode hb]
    exact ⟨Iff.rfl, rfl, rfl, rfl⟩

end Axis

end ConsensusEnvelope
