import ConsensusEnvelope.Json.Sequence
import ConsensusEnvelope.Proofs.Outcome
import ConsensusEnvelope.Proofs.Utf8
import Mathlib.Data.List.Basic

/-!
# Decimal numbers are read back

A number is written with the digits of its decimal expansion, without a zero in front
unless it is the whole number. The reader collects digits as long as the result fits into
64 bits, and every number that is written here does. It ends at the first byte that is no
digit, which must not be one of the three that make a number go on: the point and the two
letters of an exponent. What stands behind a number in a document is a comma or a bracket,
so the condition is about the rest of the text and not about the number (`Ends`).
-/

namespace ConsensusEnvelope.Json

/-! ## Digits -/

section Digits

variable {c : Char} {cs : List Char} {n : Nat}

theorem exists_digitChar (h : c.isDigit = true) : ∃ d < 10, Nat.digitChar d = c := by
  obtain ⟨hlow, hhigh⟩ := Char.isDigit_iff_toNat.mp h
  have hzero : '0'.toNat = 48 := rfl
  have hnine : '9'.toNat = 57 := rfl
  refine ⟨c.toNat - 48, by omega, ?_⟩
  apply Char.toNat_inj.mp
  rw [Nat.toNat_digitChar_of_lt_ten (by omega)]
  omega

theorem utf8EncodeChar_of_isDigit (h : c.isDigit = true) :
    String.utf8EncodeChar c = [c.toUInt8] := by
  obtain ⟨d, hd, rfl⟩ := exists_digitChar h
  revert d
  decide

theorem digit?_toUInt8 (h : c.isDigit = true) :
    digit? c.toUInt8 = some (c.toNat - '0'.toNat) := by
  obtain ⟨d, hd, rfl⟩ := exists_digitChar h
  revert d
  decide

theorem isDigit_toUInt8 (h : c.isDigit = true) : isDigit c.toUInt8 = true := by
  rw [isDigit, digit?_toUInt8 h]
  rfl

theorem opens_toUInt8 (h : c.isDigit = true) :
    isBlank c.toUInt8 = false ∧ c.toUInt8 ≠ 0x5d := by
  obtain ⟨d, hd, rfl⟩ := exists_digitChar h
  revert d
  decide

theorem le_ofDigitChars (n : Nat) (cs : List Char) : n ≤ Nat.ofDigitChars 10 cs n := by
  rw [Nat.ofDigitChars_eq_ofDigitChars_zero]
  have hpow : n ≤ 10 ^ cs.length * n := Nat.le_mul_of_pos_left n (Nat.pow_pos (by decide))
  exact Nat.le_add_right_of_le hpow

/-- A zero stands in front only if it is the whole number. -/
theorem eq_nil_of_toDigits_eq_zero_cons (h : Nat.toDigits 10 n = '0' :: cs) : cs = [] := by
  induction n using Nat.strongRecOn generalizing cs with
  | ind n ih =>
      rw [Nat.toDigits_eq_if (by decide)] at h
      split at h
      · exact (List.cons.inj h).2.symm
      · next hge =>
          cases hhigh : Nat.toDigits 10 (n / 10) with
          | nil => exact absurd hhigh Nat.toDigits_ne_nil
          | cons c high =>
              rw [hhigh] at h
              obtain ⟨rfl, -⟩ := List.cons.inj h
              have hvalue : Nat.ofDigitChars 10 (Nat.toDigits 10 (n / 10)) 0 = n / 10 :=
                Nat.ofDigitChars_ten_toDigits
              rw [hhigh, ih (n / 10) (by omega) hhigh] at hvalue
              change 0 = n / 10 at hvalue
              omega

end Digits

/-- The decimal form of a number. -/
def numeral (n : Nat) : Bytes :=
  Utf8.encode (toString n)

theorem exists_numeral (n : Nat) :
    ∃ c cs, (∀ c' ∈ c :: cs, c'.isDigit = true) ∧
      numeral n = (c :: cs).map Char.toUInt8 ∧ Nat.ofDigitChars 10 (c :: cs) 0 = n ∧
      (c = '0' → cs = []) := by
  have hdigits : ∀ c ∈ Nat.toDigits 10 n, c.isDigit = true :=
    fun _ => Nat.isDigit_of_mem_toDigits (by decide) (by decide)
  have hbytes : numeral n = (Nat.toDigits 10 n).map Char.toUInt8 := by
    rw [numeral, Utf8.encode_eq_flatMap, Nat.toString_eq_repr, Nat.toList_repr,
      List.map_eq_flatMap]
    exact List.flatMap_congr fun c hmem => utf8EncodeChar_of_isDigit (hdigits c hmem)
  have hvalue : Nat.ofDigitChars 10 (Nat.toDigits 10 n) 0 = n := Nat.ofDigitChars_ten_toDigits
  cases hchars : Nat.toDigits 10 n with
  | nil => exact absurd hchars Nat.toDigits_ne_nil
  | cons c cs =>
      rw [hchars] at hdigits hbytes hvalue
      refine ⟨c, cs, hdigits, hbytes, hvalue, ?_⟩
      rintro rfl
      exact eq_nil_of_toDigits_eq_zero_cons hchars

/-! ## Where a number ends -/

/-- Nothing at the front of a text makes a number before it go on. -/
def Ends (rest : Bytes) : Prop :=
  ∀ b tail, rest = b :: tail → digit? b = none ∧ b ≠ 0x2e ∧ b ≠ 0x65 ∧ b ≠ 0x45

theorem ends_nil : Ends [] := nofun

theorem ends_cons {b : UInt8} (h : b = 0x2c ∨ b = 0x5d ∨ b = 0x7d) (tail : Bytes) :
    Ends (b :: tail) := by
  intro b' tail' heq
  cases heq
  rcases h with rfl | rfl | rfl <;> decide

variable {rest : Bytes}

theorem startsWithDigit_of_ends (h : Ends rest) : startsWithDigit rest = false := by
  cases rest with
  | nil => rfl
  | cons b tail =>
      have hdigit := (h b tail rfl).1
      rw [startsWithDigit, List.head?_cons, Option.map_some, isDigit, hdigit]
      rfl

/-- All digits are collected if the number that they make up is below the bound. -/
theorem digitsBelow_digits {bound n : Nat} {cs : List Char} (count : Nat)
    (hdigits : ∀ c ∈ cs, c.isDigit = true) (hbound : Nat.ofDigitChars 10 cs n < bound)
    (hrest : Ends rest) :
    digitsBelow bound n count (cs.map Char.toUInt8 ++ rest) =
      (Nat.ofDigitChars 10 cs n, count + cs.length, rest) := by
  induction cs generalizing n count with
  | nil =>
      cases rest with
      | nil => rfl
      | cons b tail =>
          have hdigit := (hrest b tail rfl).1
          rw [List.map_nil, List.nil_append, digitsBelow, hdigit]
          rfl
  | cons c cs ih =>
      rw [Nat.ofDigitChars_cons] at hbound ⊢
      have hstep : 10 * n + (c.toNat - '0'.toNat) < bound :=
        Nat.lt_of_le_of_lt (le_ofDigitChars _ cs) hbound
      have hcollect := ih (count + 1) (fun c' hmem => hdigits c' (List.mem_cons_of_mem c hmem))
        hbound
      rw [List.map_cons, List.cons_append, digitsBelow,
        digit?_toUInt8 (hdigits c List.mem_cons_self)]
      dsimp only
      rw [if_pos hstep, hcollect, List.length_cons, Nat.add_assoc, Nat.add_comm 1]

theorem Number.readShort_of_ends (n : Nat) (hrest : Ends rest) :
    Number.readShort false n rest = .ok (.unsigned n, rest) := by
  rw [Number.readShort.eq_def]
  split
  · exact absurd rfl (hrest _ _ rfl).2.1
  · exact absurd rfl (hrest _ _ rfl).2.2.1
  · exact absurd rfl (hrest _ _ rfl).2.2.2
  · rfl

/-- A number that fits into 64 bits is read back. -/
theorem Number.read_numeral {n : Nat} (hn : n < UInt64.size) (hrest : Ends rest) :
    Number.read (numeral n ++ rest) = .ok (.unsigned n, rest) := by
  obtain ⟨c, cs, hdigits, hbytes, hvalue, hzero⟩ := exists_numeral n
  have hc : c.isDigit = true := hdigits c List.mem_cons_self
  have hstop : startsWithDigit rest = false := startsWithDigit_of_ends hrest
  have hread : Number.read (c.toUInt8 :: (cs.map Char.toUInt8 ++ rest)) =
      Number.readUnsigned false (c.toUInt8 :: (cs.map Char.toUInt8 ++ rest)) := by
    rw [Number.read.eq_def]
    split
    · next heq =>
        have hminus : digit? 0x2d = none := by decide
        rw [← (List.cons.inj heq).1, digit?_toUInt8 hc] at hminus
        cases hminus
    · rfl
  rw [Nat.ofDigitChars_cons, Nat.mul_zero, Nat.zero_add] at hvalue
  rw [hbytes, List.map_cons, List.cons_append, hread, Number.readUnsigned, digit?_toUInt8 hc]
  split
  · next heq => cases heq
  · next heq =>
      -- A leading zero is the whole number.
      have hnone : c.toNat - '0'.toNat = 0 := Option.some.inj heq
      have hlow := (Char.isDigit_iff_toNat.mp hc).1
      have hchar : c = '0' := Char.toNat_inj.mp (by omega)
      rw [hzero hchar, hnone] at hvalue
      rw [hzero hchar, List.map_nil, List.nil_append, hstop, if_neg Bool.false_ne_true, ← hvalue]
      exact Number.readShort_of_ends 0 hrest
  · next d _ heq =>
      have hd : c.toNat - '0'.toNat = d := Option.some.inj heq
      rw [hd] at hvalue
      have hcollect := digitsBelow_digits 0
        (fun c' hmem => hdigits c' (List.mem_cons_of_mem c hmem)) (by rwa [hvalue]) hrest
      rw [hcollect]
      dsimp only
      rw [hstop, if_neg Bool.false_ne_true, hvalue]
      exact Number.readShort_of_ends n hrest

/-! ## Values at the front of a text -/

/-- A reader takes a text for a value, whatever ends the value behind it. -/
def Takes {α : Type} (read : Reader α) (text : Bytes) (a : α) : Prop :=
  ∀ rest, Ends rest → read (text ++ rest) = .ok (a, rest)

/-- A text that can stand as an element of an array: it is not empty, and its first byte
neither is passed over as a blank nor ends the array. -/
def Opens (text : Bytes) : Prop :=
  ∃ b tail, text = b :: tail ∧ isBlank b = false ∧ b ≠ 0x5d

theorem skipBlanks_of_not_blank {b : UInt8} (h : isBlank b = false) (tail : Bytes) :
    skipBlanks (b :: tail) = b :: tail :=
  List.dropWhile_cons_of_neg (Bool.not_eq_true _ ▸ h)

theorem opens_numeral (n : Nat) : Opens (numeral n) := by
  obtain ⟨c, cs, hdigits, hbytes, -, -⟩ := exists_numeral n
  exact ⟨c.toUInt8, cs.map Char.toUInt8, hbytes, opens_toUInt8 (hdigits c List.mem_cons_self)⟩

theorem readBelow_numeral {n : Nat} {rest : Bytes} (expected : Expected) (bound : Nat)
    (hn : n < UInt64.size) (hrest : Ends rest) :
    readBelow expected bound (numeral n ++ rest) =
      if n < bound then .ok (n, rest)
      else .error (.mismatch (.value (.number (.unsigned n)) expected)) := by
  have hread := Number.read_numeral hn hrest
  obtain ⟨c, cs, hdigits, hbytes, -, -⟩ := exists_numeral n
  have hc : c.isDigit = true := hdigits c List.mem_cons_self
  rw [hbytes, List.map_cons, List.cons_append] at hread ⊢
  rw [readBelow, skipBlanks_of_not_blank (opens_toUInt8 hc).1]
  dsimp only
  rw [if_pos (.inr (isDigit_toUInt8 hc)), hread, Except.ok_bind]
  rfl

theorem takes_below {expected : Expected} {bound n : Nat} (hn : n < bound)
    (hbound : bound ≤ UInt64.size) : Takes (readBelow expected bound) (numeral n) n := by
  intro rest hrest
  rw [readBelow_numeral expected bound (Nat.lt_of_lt_of_le hn hbound) hrest, if_pos hn]

theorem takes_byte (b : UInt8) : Takes readByte (numeral b.toNat) b := by
  intro rest hrest
  rw [readByte, takes_below b.toNat_lt (by decide) rest hrest, Except.ok_bind]
  dsimp only
  rw [UInt8.ofNat_toNat]
  rfl

theorem takes_word (n : UInt32) : Takes readWord (numeral n.toNat) n := by
  intro rest hrest
  rw [readWord, takes_below n.toNat_lt (by decide) rest hrest, Except.ok_bind]
  dsimp only
  rw [UInt32.ofNat_toNat]
  rfl

end ConsensusEnvelope.Json
