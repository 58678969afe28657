import ConsensusEnvelope.Proofs.Preimage

/-!
# When two domains separate what is hashed

Networks are told apart by the domain in front of a preimage. Nothing in a
preimage says where the domain ends, so two domains separate what is hashed under
them only as far as the bytes behind a domain cannot be taken for a piece of it.

If neither domain begins with the other, a preimage has one or the other at its
front, and nothing is hashed under both. If one domain is the other one and an
extension, a common preimage is read in two ways: behind the shorter domain as
the fields of one statement, and behind the extension as those of another. A
string is the fields of a statement exactly if it has the 72 bytes that come
before a payload, and the last four of them count what follows. So all that
matters is whether the lengths can be made to fit. An extension of less than 72
bytes leaves some byte of the first length open, and then they can. A longer
extension contains the first length. The second statement begins behind the
extension and takes up 72 bytes at least, all of them within that length, so they
can if the length is not below that of the extension. It is not enough that the
extension begins like a statement: 72 zeros are all the fields of one, and leave no
room for another.
-/

namespace ConsensusEnvelope.Statement

/-! ## The fields of a statement -/

/-- The byte string is hashed under a domain: it is the preimage of a statement
that has a digest. -/
def Hashed (domain bytes : Bytes) : Prop :=
  ∃ st : Statement, st.digest domain = .ok (Blake2b.hash bytes) ∧ st.preimage domain = bytes

theorem hashed_iff {domain bytes : Bytes} :
    Hashed domain bytes ↔
      ∃ st : Statement, st.payload.length < UInt32.size ∧ st.preimage domain = bytes := by
  constructor
  · rintro ⟨st, hdigest, hpreimage⟩
    rw [digest] at hdigest
    split at hdigest
    · next hsize => exact ⟨st, hsize, hpreimage⟩
    · cases hdigest
  · rintro ⟨st, hsize, rfl⟩
    exact ⟨st, if_pos hsize, rfl⟩

/-- What is hashed under a domain begins with it, and goes on with what could be
hashed without a domain. -/
theorem hashed_append_iff {domain fields : Bytes} :
    Hashed domain (domain ++ fields) ↔ Hashed [] fields := by
  simp only [hashed_iff, preimage_eq_append domain, List.append_cancel_left_eq]

theorem Hashed.exists_append {domain bytes : Bytes} (h : Hashed domain bytes) :
    ∃ fields, bytes = domain ++ fields := by
  obtain ⟨st, -, rfl⟩ := hashed_iff.mp h
  exact ⟨_, preimage_eq_append domain st⟩

/-- The number that a string has in the place of the payload length. -/
def statedLength (bytes : Bytes) : Nat :=
  Bytes.littleValue ((bytes.drop 68).take 4)

theorem statedLength_lt (bytes : Bytes) : statedLength bytes < UInt32.size := by
  have hlen : ((bytes.drop 68).take 4).length ≤ 4 := List.length_take_le 4 _
  exact (Bytes.littleValue_lt _).trans_le (Nat.pow_le_pow_right (by decide) hlen)

theorem statedLength_append {a b : Bytes} (h : 72 ≤ a.length) :
    statedLength (a ++ b) = statedLength a := by
  rw [statedLength, statedLength, List.drop_append_of_le_length (by omega),
    List.take_append_of_le_length (by rw [List.length_drop]; omega)]

theorem statedLength_of_head {head rest : Bytes} {n : Nat} (hhead : head.length = 68)
    (hn : n < UInt32.size) : statedLength (head ++ (Bytes.littleEndian 4 n ++ rest)) = n := by
  rw [statedLength, List.drop_left' hhead, List.take_left' (Bytes.length_littleEndian 4 n),
    Bytes.littleValue_littleEndian hn]

/-- The statement that the fields of fixed width in a string make, with the rest
as its payload. -/
def ofFields (bytes : Bytes) (h : 72 ≤ bytes.length) : Statement where
  version := UInt32.ofNat (Bytes.littleValue ((bytes.drop 0).take 4))
  x := ⟨(bytes.drop 4).take 32, Bytes.length_take_drop (by omega)⟩
  y := ⟨(bytes.drop 36).take 32, Bytes.length_take_drop (by omega)⟩
  payload := bytes.drop 72

theorem preimage_ofFields {bytes : Bytes} (h : 72 ≤ bytes.length)
    (hstated : statedLength bytes + 72 = bytes.length) :
    (ofFields bytes h).preimage [] = bytes := by
  have hversion : Bytes.littleEndian 4 (ofFields bytes h).version.toNat =
      (bytes.drop 0).take 4 := by
    have hlt := Bytes.littleValue_lt ((bytes.drop 0).take 4)
    rw [Bytes.length_take_drop (by omega)] at hlt
    rw [ofFields, UInt32.toNat_ofNat_of_lt' hlt, Bytes.littleEndian_take_drop (by omega)]
  have hcount : Bytes.littleEndian 4 (ofFields bytes h).payload.length =
      (bytes.drop 68).take 4 := by
    have hpayload : (ofFields bytes h).payload.length = statedLength bytes := by
      rw [ofFields, List.length_drop]
      omega
    rw [hpayload, statedLength, Bytes.littleEndian_take_drop (by omega)]
  have hpiece : ∀ i n, (bytes.drop i).take n ++ bytes.drop (i + n) = bytes.drop i := by
    intro i n
    rw [← List.drop_drop, List.take_append_drop]
  rw [preimage, hversion, hcount]
  simp only [ofFields, List.nil_append, List.append_assoc]
  rw [hpiece 68 4, hpiece 36 32, hpiece 4 32, hpiece 0 4, List.drop_zero]

/-- A string is the fields of a statement if the length in it counts what comes
behind that length. -/
theorem hashed_nil_iff {bytes : Bytes} :
    Hashed [] bytes ↔ 72 ≤ bytes.length ∧ statedLength bytes + 72 = bytes.length := by
  rw [hashed_iff]
  constructor
  · rintro ⟨st, hsize, rfl⟩
    have hhead : (Bytes.littleEndian 4 st.version.toNat ++ st.x.bytes ++ st.y.bytes).length =
        68 := by
      simp [st.x.length_bytes, st.y.length_bytes]
    have hfields : st.preimage [] =
        Bytes.littleEndian 4 st.version.toNat ++ st.x.bytes ++ st.y.bytes ++
          (Bytes.littleEndian 4 st.payload.length ++ st.payload) := by
      simp [preimage]
    rw [hfields, statedLength_of_head hhead hsize, List.length_append, hhead,
      List.length_append, Bytes.length_littleEndian]
    omega
  · rintro ⟨hlen, hstated⟩
    refine ⟨ofFields bytes hlen, ?_, preimage_ofFields hlen hstated⟩
    have hlt := statedLength_lt bytes
    rw [ofFields, List.length_drop]
    omega

/-! ## Extensions -/

/-- A string is read in both ways if each of the two lengths in it fits. -/
theorem exists_hashed_of_lengths {extension fields : Bytes} {inner : Nat}
    (hlen : fields.length = 72 + inner) (hinner : statedLength fields = inner)
    (houter : statedLength (extension ++ fields) = extension.length + inner) :
    ∃ fields, Hashed [] fields ∧ Hashed [] (extension ++ fields) := by
  refine ⟨fields, hashed_nil_iff.mpr ⟨by omega, by omega⟩, hashed_nil_iff.mpr ?_⟩
  rw [List.length_append]
  exact ⟨by omega, by omega⟩

/-- Any extension of at most 68 bytes is followed by the fields of an empty payload
such that its length stands where the whole states its own. -/
theorem exists_hashed_of_short {extension : Bytes} (hshort : extension.length ≤ 68) :
    ∃ fields, Hashed [] fields ∧ Hashed [] (extension ++ fields) := by
  generalize hk : extension.length = k at hshort
  let fields := List.replicate (68 - k) 0 ++ Bytes.littleEndian (k + 4) k
  have hlen : fields.length = 72 := by
    rw [List.length_append, List.length_replicate, Bytes.length_littleEndian]
    omega
  have hinner : statedLength fields = 0 := by
    have hdrop : fields.drop 68 = Bytes.littleEndian 4 (k / 256 ^ k) := by
      rw [List.drop_append, List.length_replicate, Nat.sub_sub_self hshort,
        List.drop_eq_nil_of_le (by rw [List.length_replicate]; omega), List.nil_append,
        Bytes.drop_littleEndian]
    rw [statedLength, hdrop, Nat.div_eq_of_lt (Nat.lt_pow_self (by decide)),
      List.take_of_length_le (by rw [Bytes.length_littleEndian]),
      Bytes.littleValue_littleEndian (by decide)]
  have houter : statedLength (extension ++ fields) = k := by
    have hfront : (extension ++ List.replicate (68 - k) 0).length = 68 := by
      rw [List.length_append, List.length_replicate]
      omega
    rw [statedLength, ← List.append_assoc, List.drop_left' hfront, Nat.add_comm k 4,
      Bytes.take_littleEndian, Bytes.littleValue_littleEndian (by omega)]
  exact exists_hashed_of_lengths hlen hinner (houter.trans hk.symm)

/-- An extension that reaches into the first length or beyond can be filled up to
the end of that length, such that the length stated there is not below the length
of the extension. -/
theorem exists_fill {extension : Bytes} (hlong : 68 < extension.length)
    (h : extension.length < 72 ∨ extension.length ≤ statedLength extension) :
    ∃ fill : Bytes, fill.length ≤ 68 ∧ 72 ≤ (extension ++ fill).length ∧
      extension.length ≤ statedLength (extension ++ fill) := by
  by_cases hopen : extension.length < 72
  · -- The highest byte of the length is still open, and a one there is enough.
    let front := extension ++ List.replicate (71 - extension.length) 0
    have hfront : front.length = 71 := by
      rw [List.length_append, List.length_replicate]
      omega
    have hdrop : (front.drop 68).length = 3 := by rw [List.length_drop, hfront]
    have hstated : statedLength (front ++ [1]) =
        Bytes.littleValue (front.drop 68) + 256 ^ 3 := by
      rw [statedLength, List.drop_append_of_le_length (by omega), List.take_of_length_le
        (by rw [List.length_append, hdrop]; decide), Bytes.littleValue_append, hdrop]
      rfl
    refine ⟨List.replicate (71 - extension.length) 0 ++ [1], ?_, ?_, ?_⟩
    · rw [List.length_append, List.length_replicate, List.length_singleton]
      omega
    · rw [← List.append_assoc, List.length_append, hfront]
      exact Nat.le_refl 72
    · rw [← List.append_assoc, hstated]
      omega
  · refine ⟨[], Nat.zero_le 68, ?_, ?_⟩ <;> rw [List.append_nil]
    · omega
    · exact h.resolve_left hopen

/-- Such an extension is followed by the fields of a payload that makes up for what
the extension lacks of the length stated in it. -/
theorem exists_hashed_of_long {extension : Bytes} (hlong : 68 < extension.length)
    (h : extension.length < 72 ∨ extension.length ≤ statedLength extension) :
    ∃ fields, Hashed [] fields ∧ Hashed [] (extension ++ fields) := by
  obtain ⟨fill, hfill, hfull, hreach⟩ := exists_fill hlong h
  have hlt := statedLength_lt (extension ++ fill)
  obtain ⟨n, hn⟩ := Nat.exists_eq_add_of_le hreach
  let rest := Bytes.littleEndian 4 n ++ List.replicate n 0
  let zeros : Bytes := List.replicate (68 - fill.length) 0
  have hhead : (fill ++ zeros).length = 68 := by
    rw [List.length_append, List.length_replicate]
    omega
  have hlen : (fill ++ zeros ++ rest).length = 72 + n := by
    rw [List.length_append, hhead, List.length_append, Bytes.length_littleEndian,
      List.length_replicate]
    omega
  have hinner : statedLength (fill ++ zeros ++ rest) = n :=
    statedLength_of_head hhead (by omega)
  have houter : statedLength (extension ++ (fill ++ zeros ++ rest)) = extension.length + n := by
    rw [List.append_assoc fill, ← List.append_assoc, statedLength_append hfull, hn]
  exact exists_hashed_of_lengths hlen hinner houter

/-- The fields of one statement can be read as an extension and the fields of
another statement exactly if the lengths can be made to fit. -/
theorem exists_hashed_append_iff {extension : Bytes} :
    (∃ fields, Hashed [] fields ∧ Hashed [] (extension ++ fields)) ↔
      extension.length < 72 ∨ extension.length ≤ statedLength extension := by
  constructor
  · rintro ⟨fields, hinner, houter⟩
    rw [hashed_nil_iff] at hinner houter
    rw [List.length_append] at houter
    rcases Nat.lt_or_ge extension.length 72 with hopen | hclosed
    · exact .inl hopen
    · rw [statedLength_append hclosed] at houter
      omega
  · intro h
    rcases Nat.lt_or_ge 68 extension.length with hlong | hshort
    · exact exists_hashed_of_long hlong h
    · exact exists_hashed_of_short hshort

/-- The fields of a statement without a payload have no room for another statement. -/
example : ¬ ((List.replicate 72 0 : Bytes).length < 72 ∨
    (List.replicate 72 0 : Bytes).length ≤ statedLength (List.replicate 72 0)) := by
  decide

/-! ## Domains -/

/-- A domain goes on where another one ends, and the bytes by which it goes on can be
taken for the first ones of a statement, behind which all the fields of another
statement follow within the length that the first one states. -/
def Continues (domain domain' : Bytes) : Prop :=
  ∃ extension, domain' = domain ++ extension ∧
    (extension.length < 72 ∨ extension.length ≤ statedLength extension)

theorem exists_hashed_of_continues {domain domain' : Bytes} (h : Continues domain domain') :
    ∃ bytes, Hashed domain bytes ∧ Hashed domain' bytes := by
  obtain ⟨extension, rfl, hfits⟩ := h
  obtain ⟨fields, hinner, houter⟩ := exists_hashed_append_iff.mpr hfits
  refine ⟨domain ++ (extension ++ fields), hashed_append_iff.mpr houter, ?_⟩
  rw [← List.append_assoc]
  exact hashed_append_iff.mpr hinner

theorem continues_of_hashed {domain domain' bytes : Bytes} (h : Hashed domain bytes)
    (h' : Hashed domain' bytes) (hbegins : domain <+: domain') : Continues domain domain' := by
  obtain ⟨extension, rfl⟩ := hbegins
  obtain ⟨fields, rfl⟩ := h'.exists_append
  rw [hashed_append_iff] at h'
  rw [List.append_assoc, hashed_append_iff] at h
  exact ⟨extension, rfl, exists_hashed_append_iff.mp ⟨fields, h', h⟩⟩

/-- Two domains separate what is hashed under them, so that no byte string is hashed
under both, exactly if neither continues the other one by bytes that begin a statement
with room for the fields of another one behind them. -/
theorem separated_iff (domain domain' : Bytes) :
    (∀ bytes, ¬ (Hashed domain bytes ∧ Hashed domain' bytes)) ↔
      ¬ Continues domain domain' ∧ ¬ Continues domain' domain := by
  constructor
  · intro hseparated
    constructor
    · intro h
      obtain ⟨bytes, hboth⟩ := exists_hashed_of_continues h
      exact hseparated bytes hboth
    · intro h
      obtain ⟨bytes, hboth⟩ := exists_hashed_of_continues h
      exact hseparated bytes hboth.symm
  · rintro ⟨hnot, hnot'⟩ bytes ⟨h, h'⟩
    obtain ⟨fields, hfields⟩ := h.exists_append
    obtain ⟨fields', hfields'⟩ := h'.exists_append
    rcases List.prefix_or_prefix_of_prefix ⟨fields, hfields.symm⟩
      ⟨fields', hfields'.symm⟩ with hbegins | hbegins
    · exact hnot (continues_of_hashed h h' hbegins)
    · exact hnot' (continues_of_hashed h' h hbegins)

/-- The domain of the main network and its continuation by a digit do not separate:
the digit is the version of one statement, and the payload of that statement ends
up in the length that the other one states. -/
theorem main_domain_not_separated :
    let st : Statement := ⟨50, Axis.zero, Axis.zero, [0]⟩
    let st' : Statement := ⟨0, Axis.zero, ⟨List.replicate 31 0 ++ [1], by decide⟩, []⟩
    Settings.default.domain ≠ Settings.default.domain ++ "2" ∧
      st.preimage (Utf8.encode Settings.default.domain) =
        st'.preimage (Utf8.encode (Settings.default.domain ++ "2")) := by
  decide

end ConsensusEnvelope.Statement
