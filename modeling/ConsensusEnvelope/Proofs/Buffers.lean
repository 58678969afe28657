import ConsensusEnvelope.Abort
import ConsensusEnvelope.Proofs.Numerals
import ConsensusEnvelope.Proofs.Outcome

/-!
# Byte strings in buffers

The byte strings of this library are lists, and every operation on a list has a
result. In a buffer of a fixed size that is not so. A slice may end behind the
end of the buffer, two slices may have different lengths when one is copied into
the other, the difference of two lengths may be negative, and the sum of two
words may need one more bit. A program that meets such a case stops.

Here are these operations with the case in which they stop, and the two ways in
which received bytes are brought into a buffer: aligned to its end, behind
zeros, and side by side. For each it is said exactly when it goes through, and
that its result is then that of the operation on lists.
-/

namespace ConsensusEnvelope

/-- Why an operation on words or buffers has no result. -/
inductive Trap where
  /-- A sum does not fit its word. -/
  | overflow
  /-- A difference is negative. -/
  | underflow
  /-- A slice does not lie within its buffer. -/
  | outOfBounds
  /-- A slice is overwritten by a string of another length. -/
  | lengthMismatch
  | aborted (cause : Abort)
  deriving DecidableEq, Repr

namespace Buffer

/-! ## Words and slices -/

def add (a b : UInt64) : Except Trap UInt64 :=
  if a.toNat + b.toNat < UInt64.size then .ok (a + b) else .error .overflow

def sub (a b : Nat) : Except Trap Nat :=
  if b ≤ a then .ok (a - b) else .error .underflow

/-- The bytes of a buffer from one index up to another. -/
def slice (buffer : Bytes) (start stop : Nat) : Except Trap Bytes :=
  if start ≤ stop ∧ stop ≤ buffer.length then .ok ((buffer.take stop).drop start)
  else .error .outOfBounds

/-- Overwrites the slice between two indices. -/
def copyInto (buffer : Bytes) (start stop : Nat) (source : Bytes) : Except Trap Bytes := do
  let target ← slice buffer start stop
  if source.length = target.length then
    .ok (buffer.take start ++ source ++ buffer.drop stop)
  else .error .lengthMismatch

theorem sub_eq_ok_iff {a b n : Nat} : sub a b = .ok n ↔ b + n = a := by
  rw [sub]
  split
  · next h => rw [Except.ok.injEq]; omega
  · next h => exact ⟨nofun, fun heq => absurd (heq ▸ Nat.le_add_right b n) h⟩

theorem slice_eq_ok_iff {buffer out : Bytes} {start stop : Nat} :
    slice buffer start stop = .ok out ↔
      start ≤ stop ∧ stop ≤ buffer.length ∧ (buffer.take stop).drop start = out := by
  rw [slice]
  split
  · next h => rw [Except.ok.injEq, ← and_assoc, and_iff_right h]
  · next h => exact ⟨nofun, fun hout => absurd ⟨hout.1, hout.2.1⟩ h⟩

/-- Overwriting goes through for a slice within the buffer and a string of its
length. -/
theorem copyInto_eq_ok_iff {buffer source out : Bytes} {start stop : Nat} :
    copyInto buffer start stop source = .ok out ↔
      start ≤ stop ∧ stop ≤ buffer.length ∧ start + source.length = stop ∧
        buffer.take start ++ source ++ buffer.drop stop = out := by
  simp only [copyInto, Except.bind_eq_ok_iff, slice_eq_ok_iff]
  constructor
  · rintro ⟨target, ⟨hstart, hstop, rfl⟩, hcopy⟩
    split at hcopy
    · next hlen =>
        rw [List.length_drop, List.length_take, Nat.min_eq_left hstop] at hlen
        exact ⟨hstart, hstop, by omega, Except.ok.inj hcopy⟩
    · cases hcopy
  · rintro ⟨hstart, hstop, hlen, rfl⟩
    refine ⟨_, ⟨hstart, hstop, rfl⟩, if_pos ?_⟩
    rw [List.length_drop, List.length_take, Nat.min_eq_left hstop]
    omega

/-! ## Strings in buffers -/

/-- Copies a string to the end of a buffer of zeros. -/
def rightAlign (width : Nat) (source : Bytes) : Except Trap Bytes := do
  let start ← sub width source.length
  copyInto (List.replicate width 0) start width source

/-- The bytes of a string from the first one on that is not zero. -/
def significant (bytes : Bytes) : Except Trap Bytes :=
  slice bytes (bytes.findIdx (· != 0)) bytes.length

/-- Copies two strings into a buffer, each into one half. -/
def halves (width : Nat) (a b : Bytes) : Except Trap Bytes := do
  let buffer ← copyInto (List.replicate (width + width) 0) 0 width a
  copyInto buffer width (width + width) b

/-- A string is aligned to the end of a buffer if the buffer has room for it, and
then it is padded. -/
theorem rightAlign_eq_ok_iff {width : Nat} {source out : Bytes} :
    rightAlign width source = .ok out ↔
      source.length ≤ width ∧ source.leftpad width 0 = out := by
  -- The slice runs to the end of the buffer, so nothing stays behind the source.
  simp only [rightAlign, Except.bind_eq_ok_iff, sub_eq_ok_iff, copyInto_eq_ok_iff,
    List.length_replicate, List.take_replicate, List.drop_replicate, Nat.sub_self,
    List.replicate_zero, List.append_nil]
  constructor
  · rintro ⟨start, hstart, hle, -, -, rfl⟩
    refine ⟨by omega, ?_⟩
    rw [List.leftpad, Nat.min_eq_left hle, ← hstart, Nat.add_sub_cancel_left]
  · rintro ⟨hlen, rfl⟩
    refine ⟨width - source.length, by omega, by omega, le_refl width, by omega, ?_⟩
    rw [List.leftpad, Nat.min_eq_left (Nat.sub_le width _)]

example : rightAlign 4 [7, 9] = .ok [0, 0, 7, 9] := rfl

example : rightAlign 2 [0, 7, 9] = .error .underflow := rfl

/-- The search for a byte that is not zero ends within the string or at its
end. -/
theorem significant_eq (bytes : Bytes) : significant bytes = .ok bytes.minimal := by
  rw [significant, slice_eq_ok_iff]
  refine ⟨List.findIdx_le_length, le_refl bytes.length, ?_⟩
  rw [List.take_length, Bytes.minimal, List.dropWhile_eq_drop_findIdx_not]
  rfl

theorem halves_eq {width : Nat} {a b : Bytes} (ha : a.length = width)
    (hb : b.length = width) : halves width a b = .ok (a ++ b) := by
  simp only [halves, Except.bind_eq_ok_iff, copyInto_eq_ok_iff]
  refine ⟨a ++ List.replicate width 0, ⟨Nat.zero_le width, ?_, by omega, ?_⟩, ?_⟩
  · rw [List.length_replicate]
    omega
  · rw [List.take_zero, List.nil_append, List.drop_replicate, Nat.add_sub_cancel]
  · have hlen : (a ++ List.replicate width 0).length = width + width := by
      rw [List.length_append, ha, List.length_replicate]
    refine ⟨by omega, hlen.ge, by omega, ?_⟩
    rw [List.take_left' ha, List.drop_eq_nil_of_le hlen.le, List.append_nil]

end Buffer

end ConsensusEnvelope
