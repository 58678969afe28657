import ConsensusEnvelope.Proofs.Numerals
import ConsensusEnvelope.Statement

/-!
# A preimage determines its domain and its statement

Behind the domain every field of a preimage has a fixed width, except for the
payload, which comes last. So once the domains of two equal preimages are known
to be equal, the fields fall off one after the other by their widths, and the
payloads are what is left; the length in front of the payload is not even
needed for that.

The domain itself has no length in front of it, and a domain that continues
another one could take over bytes of the version. That is excluded by asking of
the domains in use that none of them is a proper prefix of another: two strings
that begin one and the same string are always prefixes of each other in one
direction, and then they are equal.
-/

namespace ConsensusEnvelope

namespace Bytes

/-- No byte string among some is a proper prefix of another. -/
def PrefixFree (strings : List Bytes) : Prop :=
  ∀ a ∈ strings, ∀ b ∈ strings, a <+: b → a = b

instance (strings : List Bytes) : Decidable (PrefixFree strings) :=
  inferInstanceAs (Decidable (∀ a ∈ strings, ∀ b ∈ strings, a <+: b → a = b))

/-- Strings of a prefix-free list that begin the same string are the same, and
so is what follows them. -/
theorem PrefixFree.append_inj {strings : List Bytes} (free : PrefixFree strings)
    {a b s t : Bytes} (ha : a ∈ strings) (hb : b ∈ strings)
    (h : a ++ s = b ++ t) : a = b ∧ s = t := by
  have hab : a = b := by
    have hpa : a <+: b ++ t := h ▸ List.prefix_append a s
    rcases List.prefix_or_prefix_of_prefix hpa (List.prefix_append b t) with
      hp | hp
    · exact free a ha b hb hp
    · exact (free b hb a ha hp).symm
  subst hab
  exact ⟨rfl, List.append_cancel_left h⟩

end Bytes

namespace Statement

theorem preimage_eq_append (domain : Bytes) (st : Statement) :
    st.preimage domain = domain ++ st.preimage [] := by
  simp only [preimage, List.append_assoc, List.nil_append]

/-- Without a domain, the fields are found by their widths. -/
theorem eq_of_preimage_nil_eq {st st' : Statement}
    (h : st.preimage [] = st'.preimage []) : st = st' := by
  simp only [preimage, List.append_assoc, List.nil_append] at h
  obtain ⟨hversion, h⟩ := List.append_inj h (by simp)
  obtain ⟨hx, h⟩ := List.append_inj h (by rw [st.x.length_bytes, st'.x.length_bytes])
  obtain ⟨hy, h⟩ := List.append_inj h (by rw [st.y.length_bytes, st'.y.length_bytes])
  obtain ⟨-, hpayload⟩ := List.append_inj h (by simp)
  have hlt : ∀ version : UInt32, version.toNat < 256 ^ 4 := UInt32.toNat_lt
  refine Statement.ext ?_ (Axis.ext hx) (Axis.ext hy) hpayload
  exact UInt32.toNat_inj.mp (Bytes.littleEndian_inj (hlt _) (hlt _) hversion)

/-- Under domains neither of which is a proper prefix of the other, statements
have equal preimages only if the domains and all fields are equal. -/
theorem preimage_eq_iff {domain domain' : Bytes}
    (free : Bytes.PrefixFree [domain, domain']) {st st' : Statement} :
    st.preimage domain = st'.preimage domain' ↔ domain = domain' ∧ st = st' := by
  constructor
  · intro h
    rw [preimage_eq_append domain, preimage_eq_append domain'] at h
    obtain ⟨hdomain, hfields⟩ := free.append_inj (by simp) (by simp) h
    exact ⟨hdomain, eq_of_preimage_nil_eq hfields⟩
  · rintro ⟨rfl, rfl⟩
    rfl

/-- Two domains of one length; the statements differ by a byte that one has at
the end of its second axis and the other at the start of its payload. -/
theorem preimage_ne_of_shifted :
    (⟨1, Axis.zero, ⟨List.replicate 31 0 ++ [7], by decide⟩, [8]⟩ : Statement).preimage
        (Utf8.encode "main") ≠
      (⟨1, Axis.zero, Axis.zero, [7, 8]⟩ : Statement).preimage (Utf8.encode "test") := by
  have free : Bytes.PrefixFree [Utf8.encode "main", Utf8.encode "test"] := by decide
  intro h
  have hdomain := ((preimage_eq_iff free).mp h).1
  exact absurd hdomain (by decide)

end Statement

end ConsensusEnvelope
