import ConsensusEnvelope.Codec
import ConsensusEnvelope.Frame
import ConsensusEnvelope.Proofs.Numerals
import ConsensusEnvelope.Proofs.Outcome

/-!
# What binary formats accept, and that they read what they write

Two laws are carried through the shapes that formats are built from.

`Accepts` says everything about the reader: a value is read from a byte string
exactly by taking one of the value's spellings off its front. The spellings are
a relation of their own, and each shape makes the relation of the whole out of
those of its parts: a pair is spelt by a spelling of the first component and
then one of the second, and so on. Since what follows a spelling has no
influence, the front of a byte string that a format reads is the same whatever
comes behind it. That is what decoding a whole byte string comes down to, and
why no separators are needed.

`RoundTrips` is the forward law alone: what the format writes is read back, in
front of anything. It is closed under all shapes, also those whose spellings
nobody needs to know. A length is written into eight bytes, so the law is about
the values that fit: those in which nothing has a length of `2 ^ 64` or more. The
shapes say which these are, each in terms of its parts. Every part of a value
takes up less than the whole, so a value fits if its binary form is shorter than
`2 ^ 64` bytes.

The laws are about plain options: numbers take up the bytes of their type, least
significant byte first, and nothing may follow a value. Payloads and frames choose their
options apart from each other, and both choose these.
-/

namespace ConsensusEnvelope

namespace Binary

/-- Numbers take up the bytes of their type, least significant byte first, and nothing may
follow a value. -/
def Options.plain : Options where
  order := .little
  numbers := .fixed
  trailing := .refused

theorem Options.encode_plain {α : Type} (form : Options → Format α) (a : α) :
    plain.encode form a = (form plain).write a := rfl

theorem Options.decode_plain {α : Type} (form : Options → Format α) (bytes : Bytes) :
    plain.decode form bytes = (form plain).decode bytes := rfl

theorem takeBytes_eq_ok_iff {fault : Fault} {n : Nat} {bytes taken rest : Bytes} :
    takeBytes fault n bytes = .ok (taken, rest) ↔
      bytes = taken ++ rest ∧ taken.length = n := by
  simp only [takeBytes, List.length_take]
  constructor
  · intro h
    split at h
    · cases h
    · next hlen =>
        cases h
        exact ⟨(List.take_append_drop n bytes).symm, by rw [List.length_take]; omega⟩
  · rintro ⟨rfl, rfl⟩
    rw [if_neg (by rw [List.length_append]; omega), List.take_left, List.drop_left]

namespace Format

variable {α β : Type}

/-- The format reads a value from the front of a byte string exactly by taking
one of the value's spellings. -/
def Accepts (format : Format α) (spelling : Bytes → α → Prop) : Prop :=
  ∀ bytes a rest, format.read bytes = .ok (a, rest) ↔
    ∃ used, bytes = used ++ rest ∧ spelling used a

/-- The format reads back the values that fit, in front of anything. -/
structure RoundTrips (format : Format α) (fits : α → Prop) : Prop where
  read_write : ∀ a, fits a → ∀ rest, format.read (format.write a ++ rest) = .ok (a, rest)
  fits_of_length : ∀ a, (format.write a).length < UInt64.size → fits a

section Laws

variable {format : Format α} {first : Format α} {second : Format β}
  {P : Bytes → α → Prop} {Q : Bytes → β → Prop} {fits fits' : α → Prop} {fits₂ : β → Prop}

theorem Accepts.congr {P' : Bytes → α → Prop} (h : format.Accepts P)
    (hP : ∀ used a, P used a ↔ P' used a) : format.Accepts P' := by
  intro bytes a rest
  rw [h]
  simp only [hP]

/-- A whole byte string is decoded to the value that it spells. -/
theorem Accepts.decode_eq_ok_iff (h : format.Accepts P) {bytes : Bytes} {a : α} :
    format.decode bytes = .ok a ↔ P bytes a := by
  rw [decode, Except.bind_eq_ok_iff]
  constructor
  · rintro ⟨⟨a', rest⟩, hread, hrest⟩
    obtain ⟨used, rfl, hP⟩ := (h _ _ _).mp hread
    cases rest with
    | nil => cases hrest; rwa [List.append_nil]
    | cons b rest => cases hrest
  · intro hP
    exact ⟨(a, []), (h _ _ _).mpr ⟨bytes, (List.append_nil _).symm, hP⟩, rfl⟩

theorem Accepts.roundTrips (h : format.Accepts P)
    (hwrite : ∀ a, fits a → P (format.write a) a)
    (hfits : ∀ a, (format.write a).length < UInt64.size → fits a) :
    format.RoundTrips fits where
  read_write a ha _ := (h _ _ _).mpr ⟨_, rfl, hwrite a ha⟩
  fits_of_length := hfits

theorem RoundTrips.congr (h : format.RoundTrips fits) (hfits : ∀ a, fits a ↔ fits' a) :
    format.RoundTrips fits' where
  read_write a ha := h.read_write a ((hfits a).mpr ha)
  fits_of_length a hlen := (hfits a).mp (h.fits_of_length a hlen)

theorem RoundTrips.decode_write (h : format.RoundTrips fits) {a : α} (ha : fits a) :
    format.decode (format.write a) = .ok a := by
  have hread := h.read_write a ha []
  rw [List.append_nil] at hread
  rw [decode, hread]
  rfl

/-- What is written is read back, so values that fit are told apart by it. -/
theorem RoundTrips.write_inj (h : format.RoundTrips fits) {a b : α} (ha : fits a) (hb : fits b)
    (hwrite : format.write a = format.write b) : a = b := by
  have hread := h.read_write a ha []
  rw [hwrite, h.read_write b hb []] at hread
  cases hread
  rfl

/-! ## Combinations -/

theorem accepts_map (h : format.Accepts P) (into : β → α) (back : α → β) :
    (format.map into back).Accepts fun used b => ∃ a, P used a ∧ back a = b := by
  intro bytes b rest
  simp only [map, Except.bind_eq_ok_iff]
  constructor
  · rintro ⟨⟨a, rest'⟩, hread, hpure⟩
    cases hpure
    obtain ⟨used, hbytes, hP⟩ := (h _ _ _).mp hread
    exact ⟨used, hbytes, a, hP, rfl⟩
  · rintro ⟨used, hbytes, a, hP, rfl⟩
    exact ⟨(a, rest), (h _ _ _).mpr ⟨used, hbytes, hP⟩, rfl⟩

theorem roundTrips_map (h : format.RoundTrips fits) {into : β → α} {back : α → β}
    (hback : ∀ b, back (into b) = b) :
    (format.map into back).RoundTrips fun b => fits (into b) where
  read_write b hb rest := by
    simp only [map, h.read_write (into b) hb rest, hback, bind, Except.bind]
    rfl
  fits_of_length b hlen := h.fits_of_length (into b) hlen

theorem accepts_filterMap (h : format.Accepts P) (into : β → α)
    (back : α → Except Fault β) :
    (format.filterMap into back).Accepts fun used b =>
      ∃ a, P used a ∧ back a = .ok b := by
  intro bytes b rest
  simp only [filterMap, Except.bind_eq_ok_iff]
  constructor
  · rintro ⟨⟨a, rest'⟩, hread, b', hb, hpure⟩
    cases hpure
    obtain ⟨used, hbytes, hP⟩ := (h _ _ _).mp hread
    exact ⟨used, hbytes, a, hP, hb⟩
  · rintro ⟨used, hbytes, a, hP, hb⟩
    exact ⟨(a, rest), (h _ _ _).mpr ⟨used, hbytes, hP⟩, b, hb, rfl⟩

theorem roundTrips_filterMap (h : format.RoundTrips fits) {into : β → α}
    {back : α → Except Fault β} (hback : ∀ b, back (into b) = .ok b) :
    (format.filterMap into back).RoundTrips fun b => fits (into b) where
  read_write b hb rest := by
    simp only [filterMap, h.read_write (into b) hb rest, hback, bind, Except.bind]
    rfl
  fits_of_length b hlen := h.fits_of_length (into b) hlen

theorem accepts_pair (hfirst : first.Accepts P) (hsecond : second.Accepts Q) :
    (first.pair second).Accepts fun used p =>
      ∃ u v, used = u ++ v ∧ P u p.1 ∧ Q v p.2 := by
  rintro bytes ⟨a, b⟩ rest
  simp only [pair, Except.bind_eq_ok_iff]
  constructor
  · rintro ⟨⟨a', rest₁⟩, hread₁, ⟨b', rest₂⟩, hread₂, hpure⟩
    cases hpure
    obtain ⟨u, rfl, hP⟩ := (hfirst _ _ _).mp hread₁
    obtain ⟨v, rfl, hQ⟩ := (hsecond _ _ _).mp hread₂
    exact ⟨u ++ v, (List.append_assoc u v _).symm, u, v, rfl, hP, hQ⟩
  · rintro ⟨used, rfl, u, v, rfl, hP, hQ⟩
    exact ⟨(a, v ++ rest), (hfirst _ _ _).mpr ⟨u, List.append_assoc u v rest, hP⟩,
      (b, rest), (hsecond _ _ _).mpr ⟨v, rfl, hQ⟩, rfl⟩

theorem roundTrips_pair (hfirst : first.RoundTrips fits) (hsecond : second.RoundTrips fits₂) :
    (first.pair second).RoundTrips fun p => fits p.1 ∧ fits₂ p.2 where
  read_write := by
    rintro ⟨a, b⟩ ⟨ha, hb⟩ rest
    have hread₁ := hfirst.read_write a ha (second.write b ++ rest)
    have hread₂ := hsecond.read_write b hb rest
    simp only [pair, List.append_assoc, hread₁, hread₂, bind, Except.bind]
    rfl
  fits_of_length := by
    rintro ⟨a, b⟩ hlen
    simp only [pair, List.length_append] at hlen
    exact ⟨hfirst.fits_of_length a (by omega), hsecond.fits_of_length b (by omega)⟩

end Laws

/-! ## Numbers -/

theorem accepts_number (width : Nat) :
    (number .plain width).Accepts fun used n =>
      used.length = width ∧ used.littleValue = n := by
  intro bytes n rest
  simp only [number, Options.plain, fixed, Except.bind_eq_ok_iff]
  constructor
  · rintro ⟨⟨taken, rest'⟩, htake, hpure⟩
    cases hpure
    obtain ⟨rfl, hlen⟩ := takeBytes_eq_ok_iff.mp htake
    exact ⟨taken, rfl, hlen, rfl⟩
  · rintro ⟨used, rfl, hlen, rfl⟩
    exact ⟨(used, rest), takeBytes_eq_ok_iff.mpr ⟨rfl, hlen⟩, rfl⟩

/-- A number that stands for a value of a type with as many values as the width
has numbers. -/
theorem accepts_word {width : Nat} {into : β → Nat} {back : Nat → β}
    (hlt : ∀ b, into b < 256 ^ width) (hback : ∀ b, back (into b) = b)
    (hinto : ∀ n, n < 256 ^ width → into (back n) = n) :
    ((number .plain width).map into back).Accepts fun used b =>
      used = Bytes.littleEndian width (into b) := by
  refine (accepts_map (accepts_number width) into back).congr fun used b => ?_
  constructor
  · rintro ⟨n, ⟨rfl, rfl⟩, rfl⟩
    rw [hinto _ (Bytes.littleValue_lt used), Bytes.littleEndian_littleValue]
  · rintro rfl
    exact ⟨into b, ⟨Bytes.length_littleEndian _ _,
      Bytes.littleValue_littleEndian (hlt b)⟩, hback b⟩

theorem accepts_u8 : u8.Accepts fun used b => used = [b] := by
  intro bytes b rest
  cases bytes with
  | nil => exact ⟨nofun, nofun⟩
  | cons b' rest' =>
      constructor
      · intro h
        cases h
        exact ⟨[b], rfl, rfl⟩
      · rintro ⟨_, hbytes, rfl⟩
        cases hbytes
        rfl

theorem accepts_u16 :
    (u16 .plain).Accepts fun used n => used = Bytes.littleEndian 2 n.toNat :=
  accepts_word UInt16.toNat_lt (fun _ => UInt16.ofNat_toNat)
    (fun _ h => UInt16.toNat_ofNat_of_lt' h)

theorem accepts_u32 :
    (u32 .plain).Accepts fun used n => used = Bytes.littleEndian 4 n.toNat :=
  accepts_word UInt32.toNat_lt (fun _ => UInt32.ofNat_toNat)
    (fun _ h => UInt32.toNat_ofNat_of_lt' h)

theorem accepts_u64 :
    (u64 .plain).Accepts fun used n => used = Bytes.littleEndian 8 n.toNat :=
  accepts_word UInt64.toNat_lt (fun _ => UInt64.ofNat_toNat)
    (fun _ h => UInt64.toNat_ofNat_of_lt' h)

/-- Every word fits. -/
theorem roundTrips_word {width : Nat} {into : β → Nat} {back : Nat → β}
    (h : ((number .plain width).map into back).Accepts fun used b =>
      used = Bytes.littleEndian width (into b)) :
    ((number .plain width).map into back).RoundTrips fun _ => True :=
  h.roundTrips (fun _ _ => rfl) fun _ _ => trivial

theorem roundTrips_u8 : u8.RoundTrips fun _ => True :=
  accepts_u8.roundTrips (fun _ _ => rfl) fun _ _ => trivial

theorem roundTrips_u16 : (u16 .plain).RoundTrips fun _ => True := roundTrips_word accepts_u16

theorem roundTrips_u32 : (u32 .plain).RoundTrips fun _ => True := roundTrips_word accepts_u32

theorem roundTrips_u64 : (u64 .plain).RoundTrips fun _ => True := roundTrips_word accepts_u64

theorem roundTrips_i8 : i8.RoundTrips fun _ => True :=
  roundTrips_map roundTrips_u8 Int8.toInt8_toUInt8

theorem roundTrips_i64 : (i64 .plain).RoundTrips fun _ => True :=
  roundTrips_map roundTrips_u64 Int64.toInt64_toUInt64

theorem roundTrips_bool : bool.RoundTrips fun _ => True :=
  roundTrips_filterMap roundTrips_u8 fun b => by cases b <;> rfl

/-! ## Byte strings -/

/-- A byte string behind its length as eight bytes. -/
def Counted (used bs : Bytes) : Prop :=
  bs.length < UInt64.size ∧ used = Bytes.littleEndian 8 bs.length ++ bs

theorem counted_iff {used bs : Bytes} :
    Counted used bs ↔ ∃ u, used = u ++ bs ∧ u.length = 8 ∧ u.littleValue = bs.length := by
  constructor
  · rintro ⟨hlen, rfl⟩
    exact ⟨_, rfl, Bytes.length_littleEndian _ _, Bytes.littleValue_littleEndian hlen⟩
  · rintro ⟨u, rfl, hlen, hvalue⟩
    have hlt := Bytes.littleValue_lt u
    rw [hlen, hvalue] at hlt
    refine ⟨hlt, ?_⟩
    rw [← hvalue, ← hlen, Bytes.littleEndian_littleValue]

theorem read_counted_eq_ok_iff {fault : Fault} {bytes bs rest : Bytes} :
    (do
      let (count, rest) ← (number .plain 8).read bytes
      takeBytes fault count rest) = Except.ok (bs, rest) ↔
      ∃ used, bytes = used ++ rest ∧ Counted used bs := by
  simp only [Except.bind_eq_ok_iff, counted_iff]
  constructor
  · rintro ⟨⟨count, rest'⟩, hread, htake⟩
    obtain ⟨u, rfl, hlen, rfl⟩ := (accepts_number 8 _ _ _).mp hread
    obtain ⟨rfl, hcount⟩ := takeBytes_eq_ok_iff.mp htake
    exact ⟨u ++ bs, (List.append_assoc u bs rest).symm, u, rfl, hlen, hcount.symm⟩
  · rintro ⟨used, rfl, u, rfl, hlen, hvalue⟩
    exact ⟨(bs.length, bs ++ rest),
      (accepts_number 8 _ _ _).mpr ⟨u, List.append_assoc u bs rest, hlen, hvalue⟩,
      takeBytes_eq_ok_iff.mpr ⟨rfl, rfl⟩⟩

theorem accepts_bytes : (bytes .plain).Accepts Counted :=
  fun _ _ _ => read_counted_eq_ok_iff

theorem accepts_blob : (blob .plain).Accepts Counted :=
  fun _ _ _ => read_counted_eq_ok_iff

theorem roundTrips_bytes : (bytes .plain).RoundTrips fun bs => bs.length < UInt64.size :=
  accepts_bytes.roundTrips (fun _ hlen => ⟨hlen, rfl⟩) fun bs hlen => by
    simp only [bytes, List.length_append] at hlen
    omega

theorem roundTrips_blob : (blob .plain).RoundTrips fun bs => bs.length < UInt64.size :=
  accepts_blob.roundTrips (fun _ hlen => ⟨hlen, rfl⟩) fun bs hlen => by
    simp only [blob, List.length_append] at hlen
    omega

theorem roundTrips_block (width : Nat) : (block width).RoundTrips fun _ => True where
  read_write v _ rest := by
    have hv : v.toList.length = width := Vector.length_toList
    have htake : (v.toList ++ rest).take width = v.toList := List.take_left' hv
    have hdrop : (v.toList ++ rest).drop width = rest := List.drop_left' hv
    simp only [block, htake, hdrop, hv, ↓reduceDIte]
    rfl
  fits_of_length _ _ := trivial

/-! ## Lists and options -/

theorem readMany_flatMap {element : Format α} {fits : α → Prop}
    (h : element.RoundTrips fits) (as found : List α) (rest : Bytes)
    (hfits : ∀ a ∈ as, fits a) :
    readMany element.read as.length found (as.flatMap element.write ++ rest) =
      .ok (found.reverse ++ as, rest) := by
  induction as generalizing found with
  | nil => simp [readMany]
  | cons a as ih =>
      rw [List.flatMap_cons, List.append_assoc, List.length_cons, readMany,
        h.read_write a (hfits a List.mem_cons_self)]
      simp only [bind, Except.bind]
      rw [ih (a :: found) fun a' ha' => hfits a' (List.mem_cons_of_mem a ha')]
      simp

/-- Every element takes up a byte, so a list has fewer elements than bytes. -/
theorem length_le_length_flatMap {element : Format α} (hne : ∀ a, element.write a ≠ [])
    (as : List α) : as.length ≤ (as.flatMap element.write).length := by
  induction as with
  | nil => exact Nat.le_refl _
  | cons a as ih =>
      have hpos := List.length_pos_iff.mpr (hne a)
      rw [List.flatMap_cons, List.length_append, List.length_cons]
      omega

theorem length_write_le_length_flatMap (element : Format α) {a : α} {as : List α}
    (ha : a ∈ as) : (element.write a).length ≤ (as.flatMap element.write).length := by
  obtain ⟨before, after, rfl⟩ := List.append_of_mem ha
  rw [List.flatMap_append, List.flatMap_cons, List.length_append, List.length_append]
  omega

theorem roundTrips_list {element : Format α} {fits : α → Prop} (h : element.RoundTrips fits)
    (hne : ∀ a, element.write a ≠ []) :
    (element.list .plain).RoundTrips fun as => as.length < UInt64.size ∧ ∀ a ∈ as, fits a where
  read_write := by
    rintro as ⟨hlen, hfits⟩ rest
    have hcount : (number .plain 8).read ((number .plain 8).write as.length ++
        (as.flatMap element.write ++ rest)) =
        .ok (as.length, as.flatMap element.write ++ rest) :=
      (accepts_number 8 _ _ _).mpr ⟨_, rfl, Bytes.length_littleEndian _ _,
        Bytes.littleValue_littleEndian hlen⟩
    simp only [list, List.append_assoc, hcount, bind, Except.bind]
    exact readMany_flatMap h as [] rest hfits
  fits_of_length := by
    intro as hlen
    simp only [list, List.length_append] at hlen
    have hcount := length_le_length_flatMap hne as
    refine ⟨by omega, fun a ha => h.fits_of_length a ?_⟩
    have hpart := length_write_le_length_flatMap element ha
    omega

theorem roundTrips_option {value : Format α} {fits : α → Prop} (h : value.RoundTrips fits) :
    value.option.RoundTrips fun o => ∀ a ∈ o, fits a where
  read_write := by
    rintro (_ | a) hfits rest
    · rfl
    · have hread := h.read_write a (hfits a rfl) rest
      simp only [option, List.cons_append, hread, bind, Except.bind]
      rfl
  fits_of_length := by
    rintro (_ | a) hlen a' ha'
    · cases ha'
    · cases ha'
      simp only [option, List.length_cons] at hlen
      exact h.fits_of_length a (by omega)

end Format

end Binary

/-! ## The options of payloads and frames -/

theorem Codec.options_eq : Codec.options = .plain := rfl

theorem Frame.options_eq : Frame.options = .plain := rfl

theorem Codec.encode_binary {α : Type} (form : Binary.Options → Binary.Format α) (a : α) :
    (binary form).encode a = .ok ((form .plain).write a) := by
  rw [binary, options_eq]
  rfl

theorem Codec.decode_binary {α : Type} (form : Binary.Options → Binary.Format α)
    (payload : Bytes) :
    (binary form).decode payload =
      ((form .plain).decode payload).mapError fun fault => .decode fault.message := by
  rw [binary, options_eq]
  rfl

end ConsensusEnvelope
