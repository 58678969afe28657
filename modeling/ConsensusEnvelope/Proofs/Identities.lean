import ConsensusEnvelope.Proofs.Senders

/-!
# A key has one coordinate, and a coordinate one key

A coordinate is 64 bytes that anyone may have chosen, and most of them name no key. Those
that do are the coordinates of the keys and nothing else: an axis has a fixed width, so its
bytes are determined by its value, and a key has reduced coordinates, so the value is
determined by the key. A number at or above the prime, which would stand for the same
residue as a smaller one, names nothing.

So the two directions undo each other, and a sender cannot appear under two identities. In
between, keys are handed over in the long form of 65 bytes, whose tag is followed by the
bytes of the coordinate in their order.
-/

namespace ConsensusEnvelope

open Secp256k1

/-! ## The long form of a key -/

namespace Secp256k1.PublicKey

/-- The tag of the long form. -/
def longTag : UInt8 := 0x04

/-- The long form of 65 bytes: the tag, then both coordinates. -/
def uncompressed (key : PublicKey) : Bytes :=
  longTag :: (Bytes.bigEndian 32 key.x ++ Bytes.bigEndian 32 key.y)

/-- Reads a public key in its long form. -/
def ofUncompressed? : Bytes → Option PublicKey
  | [] => none
  | tag :: rest =>
    if tag = longTag ∧ rest.length = 64 then
      ofCoordinates? (Bytes.value (rest.take 32)) (Bytes.value (rest.drop 32))
    else none

theorem ofCoordinates?_isSome_iff {x y : Nat} :
    (ofCoordinates? x y).isSome = true ↔ x < fieldPrime ∧ y < fieldPrime ∧ OnCurve x y := by
  rw [ofCoordinates?]
  split
  · next h => exact iff_of_true rfl h
  · next h => exact iff_of_false Bool.false_ne_true h

theorem onCurve_iff_modEq {x y : Nat} :
    OnCurve x y ↔ y ^ 2 ≡ x ^ 3 + 7 [MOD fieldPrime] := by
  rw [sq, pow_three']
  rfl

end Secp256k1.PublicKey

namespace Axis

theorem bigEndian_value (axis : Axis) : Bytes.bigEndian 32 axis.value = axis.bytes := by
  have h := Bytes.bigEndian_value axis.bytes
  rwa [axis.length_bytes] at h

end Axis

namespace Coordinate

variable {c c' : Coordinate} {key : PublicKey}

theorem publicKey?_eq_some_iff :
    c.publicKey? = some key ↔ key.x = c.x.value ∧ key.y = c.y.value :=
  PublicKey.ofCoordinates?_eq_some_iff

/-- The bytes of a key are those of the coordinate that names it. -/
theorem bigEndian_of_publicKey? (h : c.publicKey? = some key) :
    Bytes.bigEndian 32 key.x = c.x.bytes ∧ Bytes.bigEndian 32 key.y = c.y.bytes := by
  obtain ⟨hx, hy⟩ := publicKey?_eq_some_iff.mp h
  rw [hx, hy]
  exact ⟨c.x.bigEndian_value, c.y.bigEndian_value⟩

/-- The coordinate of a key is the one that names it. -/
theorem ofPublicKey_eq_ok_iff : ofPublicKey key = .ok c ↔ c.publicKey? = some key := by
  constructor
  · intro h
    obtain ⟨c', hc', hnames⟩ := exists_ofPublicKey key
    rw [h] at hc'
    cases hc'
    exact hnames
  · intro h
    obtain ⟨hx, hy⟩ := bigEndian_of_publicKey? h
    have hbytesX : (⟨_, Bytes.length_bigEndian 32 key.x⟩ : Axis) = c.x := Axis.ext hx
    have hbytesY : (⟨_, Bytes.length_bigEndian 32 key.y⟩ : Axis) = c.y := Axis.ext hy
    rw [ofPublicKey, Axis.ofKeyComponent_eq, Axis.ofKeyComponent_eq, hbytesX, hbytesY]
    rfl

theorem ofUncompressed?_bytes (c : Coordinate) :
    PublicKey.ofUncompressed? (PublicKey.longTag :: c.bytes) = c.publicKey? := by
  rw [PublicKey.ofUncompressed?, if_pos ⟨rfl, c.length_bytes⟩, take_bytes, drop_bytes]
  rfl

theorem uncompressed_eq (h : ofPublicKey key = .ok c) :
    key.uncompressed = PublicKey.longTag :: c.bytes := by
  obtain ⟨hx, hy⟩ := bigEndian_of_publicKey? (ofPublicKey_eq_ok_iff.mp h)
  rw [PublicKey.uncompressed, hx, hy, bytes]

/-- Coordinates and keys correspond one to one. A coordinate names a key exactly if both of
its numbers are below the prime and the point lies on the curve. The coordinate of a key
always exists, and it is the one coordinate that names the key. Its bytes behind a tag are
the key in the long form, and are read as that key. -/
theorem names_one_key :
    (∀ x y : Axis, (publicKey? ⟨x, y⟩).isSome = true ↔
      x.value < fieldPrime ∧ y.value < fieldPrime ∧
        y.value ^ 2 ≡ x.value ^ 3 + 7 [MOD fieldPrime]) ∧
    (∀ (c : Coordinate) (key : PublicKey),
      c.publicKey? = some key ↔ ofPublicKey key = .ok c) ∧
    (∀ key : PublicKey, ∃ c, ofPublicKey key = .ok c ∧ c.publicKey? = some key) ∧
    (∀ (c c' : Coordinate) (key : PublicKey),
      c.publicKey? = some key → c'.publicKey? = some key → c = c') ∧
    (∀ c : Coordinate,
      PublicKey.ofUncompressed? (PublicKey.longTag :: c.bytes) = c.publicKey?) ∧
    ∀ (c : Coordinate) (key : PublicKey), ofPublicKey key = .ok c →
      key.uncompressed = PublicKey.longTag :: c.bytes := by
  refine ⟨?_, fun c key => ofPublicKey_eq_ok_iff.symm, exists_ofPublicKey, ?_,
    ofUncompressed?_bytes, fun c key => uncompressed_eq⟩
  · intro x y
    rw [publicKey?, PublicKey.ofCoordinates?_isSome_iff, PublicKey.onCurve_iff_modEq]
  · intro c c' key h h'
    have hok := ofPublicKey_eq_ok_iff.mpr h
    rw [ofPublicKey_eq_ok_iff.mpr h'] at hok
    exact (Except.ok.inj hok).symm

end Coordinate

end ConsensusEnvelope
