import ConsensusEnvelope.Bytes.Basic
import Mathlib.Tactic.Ring

/-!
# Byte strings as numerals

Both readings of a byte string are positional systems to the base 256, so for
a given width they are bijections with the numbers below `256 ^ width`. The two
halves are stated for each reading: writing a number that fits and reading it
back gives the number, and reading a byte string and writing it back in its own
width gives the byte string. So every piece of a byte string is a numeral as
well, and cutting one off is a division by a power of 256.

The big-endian reading is the little-endian one of the reversed string, and it
does not see zeros in front. That is all `minimal` and `fit?` rely on: the first
takes zeros away, the second puts them back up to a width. What comes out of
`fit?` is therefore the big-endian form of the value, whatever the number of
zeros the string came with, and nothing comes out exactly when the value is too
large for the width.
-/

namespace ConsensusEnvelope.Bytes

/-! ## Least significant byte first -/

theorem littleValue_lt (bytes : Bytes) :
    littleValue bytes < 256 ^ bytes.length := by
  induction bytes with
  | nil => decide
  | cons b rest ih =>
      have hb := b.toNat_lt
      rw [littleValue, List.length_cons, pow_succ]
      omega

theorem littleValue_littleEndian {width n : Nat} (h : n < 256 ^ width) :
    littleValue (littleEndian width n) = n := by
  induction width generalizing n with
  | zero => rw [pow_zero] at h; rw [littleEndian, littleValue]; omega
  | succ width ih =>
      rw [pow_succ] at h
      have hdiv : n / 256 < 256 ^ width := by omega
      rw [littleEndian, littleValue, ih hdiv, UInt8.toNat_ofNat']
      exact Nat.mod_add_div n 256

theorem littleEndian_littleValue (bytes : Bytes) :
    littleEndian bytes.length (littleValue bytes) = bytes := by
  induction bytes with
  | nil => rfl
  | cons b rest ih =>
      have hb := b.toNat_lt
      have hdiv : littleValue (b :: rest) / 256 = littleValue rest := by
        rw [littleValue]; omega
      have hmod : UInt8.ofNat (littleValue (b :: rest)) = b := by
        rw [← UInt8.toNat_inj, UInt8.toNat_ofNat', littleValue]; omega
      rw [List.length_cons, littleEndian, hdiv, hmod, ih]

theorem littleEndian_inj {width n m : Nat} (hn : n < 256 ^ width)
    (hm : m < 256 ^ width) (h : littleEndian width n = littleEndian width m) :
    n = m := by
  rw [← littleValue_littleEndian hn, h, littleValue_littleEndian hm]

/-! ## Most significant byte first -/

theorem foldl_value (n : Nat) (bytes : Bytes) :
    bytes.foldl (fun n b => 256 * n + b.toNat) n =
      n * 256 ^ bytes.length + value bytes := by
  induction bytes generalizing n with
  | nil => simp [value]
  | cons b rest ih =>
      rw [value, List.foldl_cons, List.foldl_cons, ih, ih (256 * 0 + b.toNat),
        List.length_cons, pow_succ]
      ring

theorem value_append (a b : Bytes) :
    value (a ++ b) = value a * 256 ^ b.length + value b := by
  rw [value, List.foldl_append, foldl_value]
  rfl

theorem value_cons (b : UInt8) (rest : Bytes) :
    value (b :: rest) = b.toNat * 256 ^ rest.length + value rest := by
  rw [value, List.foldl_cons, foldl_value]
  simp

theorem value_reverse (bytes : Bytes) :
    value bytes.reverse = littleValue bytes := by
  induction bytes with
  | nil => rfl
  | cons b rest ih =>
      rw [List.reverse_cons, value_append, ih, littleValue, value_cons]
      simp only [List.length_cons, List.length_nil, pow_zero, value,
        List.foldl_nil]
      ring

theorem value_lt (bytes : Bytes) : value bytes < 256 ^ bytes.length := by
  rw [← bytes.reverse_reverse, value_reverse, List.length_reverse]
  exact littleValue_lt bytes.reverse

theorem value_bigEndian {width n : Nat} (h : n < 256 ^ width) :
    value (bigEndian width n) = n := by
  rw [bigEndian, value_reverse, littleValue_littleEndian h]

theorem bigEndian_value (bytes : Bytes) :
    bigEndian bytes.length (value bytes) = bytes := by
  rw [← bytes.reverse_reverse, value_reverse, List.length_reverse, bigEndian,
    littleEndian_littleValue]

theorem eq_of_value_eq {a b : Bytes} (hlen : a.length = b.length)
    (h : value a = value b) : a = b := by
  rw [← bigEndian_value a, ← bigEndian_value b, hlen, h]

/-! ## Pieces -/

theorem littleValue_append (a b : Bytes) :
    littleValue (a ++ b) = littleValue a + littleValue b * 256 ^ a.length := by
  rw [← value_reverse, List.reverse_append, value_append, value_reverse, value_reverse,
    List.length_reverse, Nat.add_comm]

theorem take_littleEndian (width more n : Nat) :
    (littleEndian (width + more) n).take width = littleEndian width n := by
  induction width generalizing n with
  | zero => rfl
  | succ width ih =>
      rw [Nat.succ_add, littleEndian, List.take_succ_cons, ih, littleEndian]

theorem drop_littleEndian (skipped width n : Nat) :
    (littleEndian (skipped + width) n).drop skipped =
      littleEndian width (n / 256 ^ skipped) := by
  induction skipped generalizing n with
  | zero => rw [Nat.zero_add, List.drop_zero, pow_zero, Nat.div_one]
  | succ skipped ih =>
      rw [Nat.succ_add, littleEndian, List.drop_succ_cons, ih, Nat.div_div_eq_div_mul,
        pow_succ']

theorem length_take_drop {bytes : Bytes} {i n : Nat} (h : i + n ≤ bytes.length) :
    ((bytes.drop i).take n).length = n := by
  rw [List.length_take, List.length_drop]
  omega

/-- A piece of a string is the little-endian form of its value. -/
theorem littleEndian_take_drop {bytes : Bytes} {i n : Nat} (h : i + n ≤ bytes.length) :
    littleEndian n (littleValue ((bytes.drop i).take n)) = (bytes.drop i).take n := by
  have hpiece := littleEndian_littleValue ((bytes.drop i).take n)
  rwa [length_take_drop h] at hpiece

/-! ## Zeros in front -/

theorem value_replicate_append (k : Nat) (bytes : Bytes) :
    value (List.replicate k 0 ++ bytes) = value bytes := by
  induction k with
  | zero => rfl
  | succ k ih => rw [List.replicate_succ, List.cons_append, value_cons, ih]; simp

theorem value_leftpad (width : Nat) (bytes : Bytes) :
    value (bytes.leftpad width 0) = value bytes := by
  rw [List.leftpad, value_replicate_append]

/-- What `minimal` takes away is a run of zeros. -/
theorem exists_replicate_append_minimal (bytes : Bytes) :
    ∃ k, bytes = List.replicate k 0 ++ bytes.minimal := by
  induction bytes with
  | nil => exact ⟨0, rfl⟩
  | cons b rest ih =>
      by_cases hb : b = 0
      · obtain ⟨k, hk⟩ := ih
        refine ⟨k + 1, ?_⟩
        rw [List.replicate_succ, List.cons_append, minimal, hb,
          List.dropWhile_cons_of_pos (by decide)]
        exact congrArg (0 :: ·) hk
      · refine ⟨0, ?_⟩
        rw [minimal, List.dropWhile_cons_of_neg (by simpa using hb)]
        rfl

theorem value_minimal (bytes : Bytes) : value bytes.minimal = value bytes := by
  obtain ⟨k, hk⟩ := exists_replicate_append_minimal bytes
  conv => rhs; rw [hk, value_replicate_append]

theorem length_minimal_le (bytes : Bytes) :
    bytes.minimal.length ≤ bytes.length :=
  bytes.dropWhile_sublist _ |>.length_le

/-- A minimal string is empty or starts with a byte that counts. -/
theorem minimal_eq_nil_or_cons (bytes : Bytes) :
    bytes.minimal = [] ∨ ∃ b rest, bytes.minimal = b :: rest ∧ b ≠ 0 := by
  cases h : bytes.minimal with
  | nil => exact .inl rfl
  | cons b rest =>
      refine .inr ⟨b, rest, rfl, ?_⟩
      have hhead := List.head?_dropWhile_not (· == 0) bytes
      rw [show bytes.dropWhile (· == 0) = b :: rest from h] at hhead
      simpa using hhead

/-- A minimal string needs all of its bytes. -/
theorem length_minimal_le_iff (width : Nat) (bytes : Bytes) :
    bytes.minimal.length ≤ width ↔ value bytes < 256 ^ width := by
  rw [← value_minimal]
  constructor
  · intro h
    exact Nat.lt_of_lt_of_le (value_lt _) (Nat.pow_le_pow_right (by decide) h)
  · intro h
    rcases minimal_eq_nil_or_cons bytes with hnil | ⟨b, rest, hcons, hb⟩
    · rw [hnil]; exact Nat.zero_le width
    · rw [hcons, value_cons] at h
      rw [hcons, List.length_cons]
      have hpos : 1 ≤ b.toNat := by
        rw [Nat.one_le_iff_ne_zero, Ne, ← UInt8.toNat_zero, UInt8.toNat_inj]
        exact hb
      have hle : 256 ^ rest.length ≤ b.toNat * 256 ^ rest.length :=
        Nat.le_mul_of_pos_left _ hpos
      have hlt : 256 ^ rest.length < 256 ^ width := by omega
      exact (Nat.pow_lt_pow_iff_right (by decide)).mp hlt

/-- Fitting a string to a width gives the big-endian form of its value, unless
the value is too large for the width. -/
theorem fit?_eq (width : Nat) (bytes : Bytes) :
    fit? width bytes =
      if value bytes < 256 ^ width then some (bigEndian width (value bytes))
      else none := by
  rw [fit?]
  simp only [length_minimal_le_iff]
  split
  · next h =>
      have hlen : (bytes.minimal.leftpad width 0).length = width := by
        rw [List.length_leftpad]
        exact max_eq_left ((length_minimal_le_iff width bytes).mpr h)
      congr 1
      refine eq_of_value_eq (by rw [hlen, length_bigEndian]) ?_
      rw [value_leftpad, value_minimal, value_bigEndian h]
  · rfl

/-- A fitted string is the only one of its width and value. -/
theorem fit?_eq_some_iff {width : Nat} {bytes out : Bytes} :
    fit? width bytes = some out ↔ out.length = width ∧ out.value = bytes.value := by
  rw [fit?_eq]
  split
  · next h =>
      rw [Option.some_inj]
      constructor
      · intro heq
        rw [← heq]
        exact ⟨length_bigEndian _ _, value_bigEndian h⟩
      · intro hout
        rw [← hout.1, ← hout.2]
        exact bigEndian_value out
  · next h =>
      refine ⟨nofun, fun hout => absurd ?_ h⟩
      rw [← hout.1, ← hout.2]
      exact value_lt out

end ConsensusEnvelope.Bytes
