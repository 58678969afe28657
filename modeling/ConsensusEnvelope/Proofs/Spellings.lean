import ConsensusEnvelope.Proofs.Canonical
import Mathlib.Data.List.Sort

/-!
# Messages with several payloads

Two readers take more than their writers give. An axis may come without some of the
zeros in front of it, and the entries of a dictionary may come in any order and several
times over. Everything else that messages are made of is strict, so these two account
for all the payloads that a message has: a payload is settled by the number of bytes left
out of each axis and by the list of entries.

What a list of entries makes up is seen by looking keys up. An entry that is inserted
counts before all earlier ones, so a key has the value of its last entry, and two
dictionaries that agree on all keys are the same. A dictionary with one entry is made up
of that entry twice as well, and one with more of its entries in another order. So a
message with an entry never has only one payload, as a message with a zero in front of an
axis never has.
-/

namespace ConsensusEnvelope

namespace Dictionary

variable {α : Type}

/-- To the one who looks a key up, an entry that is inserted is put in front. -/
theorem lookup_insertEntry (key : String) (value : α) (entries : List (String × α))
    (key' : String) :
    (insertEntry key value entries).lookup key' = ((key, value) :: entries).lookup key' := by
  induction entries with
  | nil => rfl
  | cons entry rest ih =>
      obtain ⟨other, value'⟩ := entry
      rw [insertEntry]
      split
      · rfl
      · split
        · next hsame =>
            rw [← show key = other from hsame]
            simp only [List.lookup_cons]
            cases key' == key <;> rfl
        · next hdiffers =>
            rw [List.lookup_cons, ih]
            simp only [List.lookup_cons]
            by_cases hother : key' = other
            · have hkey : ¬ key' = key := fun h => hdiffers (h.symm.trans hother)
              rw [beq_eq_false_iff_ne.mpr hkey]
            · rw [beq_eq_false_iff_ne.mpr hother]

theorem length_insertEntry_le (key : String) (value : α) (entries : List (String × α)) :
    (insertEntry key value entries).length ≤ entries.length + 1 := by
  induction entries with
  | nil => exact Nat.le_refl _
  | cons entry rest ih =>
      rw [insertEntry]
      split
      · exact Nat.le_refl _
      · split
        · exact Nat.le_succ _
        · exact Nat.succ_le_succ ih

theorem lookup_foldl_insert (entries : List (String × α)) (d : Dictionary α) (key : String) :
    (entries.foldl (fun d entry => d.insert entry.1 entry.2) d).entries.lookup key =
      (entries.reverse ++ d.entries).lookup key := by
  induction entries generalizing d with
  | nil => rfl
  | cons entry rest ih =>
      have hinsert : (d.insert entry.1 entry.2).entries.lookup key = _ :=
        lookup_insertEntry entry.1 entry.2 d.entries key
      rw [List.foldl_cons, ih, List.reverse_cons, List.append_assoc, List.lookup_append, hinsert,
        List.lookup_append]
      rfl

theorem length_foldl_insert_le (entries : List (String × α)) (d : Dictionary α) :
    (entries.foldl (fun d entry => d.insert entry.1 entry.2) d).entries.length ≤
      entries.length + d.entries.length := by
  induction entries generalizing d with
  | nil => exact Nat.le_add_left _ _
  | cons entry rest ih =>
      have hinsert : (d.insert entry.1 entry.2).entries.length ≤ _ :=
        length_insertEntry_le entry.1 entry.2 d.entries
      have hrest := ih (d.insert entry.1 entry.2)
      rw [List.foldl_cons, List.length_cons]
      omega

/-- A key has the value of its last entry. -/
theorem lookup_ofList (entries : List (String × α)) (key : String) :
    (ofList entries).entries.lookup key = entries.reverse.lookup key := by
  rw [ofList, lookup_foldl_insert, empty, List.append_nil]

theorem length_ofList_le (entries : List (String × α)) :
    (ofList entries).entries.length ≤ entries.length :=
  length_foldl_insert_le entries empty

theorem lookup_eq_some_iff (d : Dictionary α) {key : String} {value : α} :
    d.entries.lookup key = some value ↔ (key, value) ∈ d.entries := by
  rw [List.lookup_eq_some_iff]
  constructor
  · rintro ⟨before, after, hentries, -⟩
    rw [hentries]
    exact List.mem_append_right before List.mem_cons_self
  · intro hmem
    obtain ⟨before, after, hentries⟩ := List.append_of_mem hmem
    refine ⟨before, after, hentries, fun entry hentry => ?_⟩
    have hlt : entry.1 < key := by
      have hsorted := d.sorted
      rw [hentries] at hsorted
      exact (List.pairwise_append.mp hsorted).2.2 entry hentry _ List.mem_cons_self
    rw [bne_iff_ne]
    exact fun heq => String.lt_irrefl _ (heq ▸ hlt)

theorem ext_lookup {d d' : Dictionary α} (h : ∀ key, d.entries.lookup key = d'.entries.lookup key) :
    d = d' := by
  have : Std.Irrefl fun a b : String × α => a.1 < b.1 := ⟨fun a => String.lt_irrefl a.1⟩
  refine Dictionary.ext (d.sorted.eq_of_mem_iff d'.sorted ?_)
  intro ⟨key, value⟩
  rw [← lookup_eq_some_iff, ← lookup_eq_some_iff, h]

/-- Entries make up a dictionary if it gives each key the value of its last entry. -/
theorem ofList_eq_iff {entries : List (String × α)} {d : Dictionary α} :
    ofList entries = d ↔ ∀ key, d.entries.lookup key = entries.reverse.lookup key := by
  constructor
  · rintro rfl key
    exact lookup_ofList entries key
  · intro h
    exact ext_lookup fun key => by rw [lookup_ofList, h]

theorem mem_of_mem_ofList {entries : List (String × α)} {entry : String × α}
    (h : entry ∈ (ofList entries).entries) : entry ∈ entries := by
  rw [← lookup_eq_some_iff, lookup_ofList, List.lookup_eq_some_iff] at h
  obtain ⟨before, after, hentries, -⟩ := h
  rw [← List.mem_reverse, hentries]
  exact List.mem_append_right before List.mem_cons_self

/-- A dictionary with an entry is made up of other entries as well: of its only entry
twice, or with the first of its entries behind the others. -/
theorem exists_ofList_eq {d : Dictionary α} (h : d.entries ≠ []) :
    ∃ entries, ofList entries = d ∧ entries ≠ d.entries ∧
      entries.length ≤ max 2 d.entries.length ∧ ∀ entry ∈ entries, entry ∈ d.entries := by
  obtain ⟨entries, sorted⟩ := d
  match entries with
  | [] => exact absurd rfl h
  | [(key, value)] =>
      refine ⟨[(key, value), (key, value)], ofList_eq_iff.mpr fun key' => ?_, by simp,
        Nat.le_refl 2, by simp⟩
      show [(key, value)].lookup key' = [(key, value), (key, value)].lookup key'
      simp only [List.lookup_cons]
      cases key' == key <;> rfl
  | (key, value) :: next :: rest =>
      obtain ⟨hfirst, hsorted⟩ := List.pairwise_cons.mp sorted
      refine ⟨next :: rest ++ [(key, value)], ofList_eq_iff.mpr fun key' => ?_, ?_, by simp, ?_⟩
      · have hrest : (next :: rest).lookup key' = (next :: rest).reverse.lookup key' :=
          ofList_eq_iff.mp (ofList_entries ⟨next :: rest, hsorted⟩) key'
        rw [List.reverse_append, List.reverse_singleton, List.singleton_append]
        show ((key, value) :: next :: rest).lookup key' = _
        rw [List.lookup_cons, hrest, List.lookup_cons]
      · -- The first key is below the next one, so they have changed places.
        intro hsame
        have hlt := hfirst next List.mem_cons_self
        rw [List.cons_append] at hsame
        rw [(List.cons.inj hsame).1] at hlt
        exact String.lt_irrefl _ hlt
      · intro e he
        rcases List.mem_append.mp he with he | he
        · exact List.mem_cons_of_mem _ he
        · exact List.mem_singleton.mp he ▸ List.mem_cons_self

/-- Only no entries make up the empty dictionary. -/
theorem eq_nil_of_lookup {entries : List (String × α)}
    (h : ∀ key, none = entries.reverse.lookup key) : entries = [] := by
  cases entries with
  | nil => rfl
  | cons entry rest =>
      have hnone := List.lookup_eq_none_iff.mp (h entry.1).symm entry
        (List.mem_reverse.mpr List.mem_cons_self)
      rw [bne_self_eq_false] at hnone
      cases hnone

end Dictionary

namespace Binary.Format

variable {α : Type} {format : Format α} {fits : α → Prop}

/-- A dictionary is spelt by any entries of which it keeps the last one for each key. -/
theorem accepts_dictionary {value : Format α} (h : value.Strict fits)
    (hback : value.RoundTrips fits) :
    (Dictionary.format .plain value).Accepts fun used d => ∃ entries,
      used = (((text .plain).pair value).list .plain).write entries ∧
      entries.length < UInt64.size ∧
      (∀ entry ∈ entries, entry.1.utf8ByteSize < UInt64.size ∧ fits entry.2) ∧
      Dictionary.ofList entries = d := by
  have hlist := (strict_list (strict_pair strict_text h)).accepts (roundTrips_entries hback)
  refine (accepts_map hlist _ _).congr fun used d => ?_
  constructor
  · rintro ⟨entries, ⟨hused, hlen, hentries⟩, hd⟩
    exact ⟨entries, hused, hlen, hentries, hd⟩
  · rintro ⟨entries, hused, hlen, hentries, hd⟩
    exact ⟨entries, ⟨hused, hlen, hentries⟩, hd⟩

end Binary.Format

/-! ## Reports -/

namespace Report

open Binary

/-- The bytes of an optional sender without the first `i` bytes of the axis. -/
def layoutSender (i : Nat) : Option Axis → Bytes
  | none => [0]
  | some a => 1 :: (Bytes.littleEndian 8 (32 - i) ++ a.bytes.drop i)

/-- The payload of a report that has the given entries for its dictionary and leaves out
the first `i` bytes of its sender. -/
def layout (i : Nat) (entries : List (String × Int8)) (m : Report) : Bytes :=
  (Format.bool.pair <| Format.char.pair <| (Format.i64 .plain).pair <|
    (Format.text .plain).option.pair <| (Format.u16 .plain).list .plain).write
    (m.flag, m.letter, m.delta, m.note, m.items) ++
  (((Format.text .plain).pair Format.i8).list .plain).write entries ++ layoutSender i m.sender

/-- The payload with these entries, and without the first `i` bytes of the sender, is one
of the report: nothing in it is too long for its length field, the last entry of each key
is the one in the dictionary, and what is left out are zeros. -/
structure Spelling (m : Report) (i : Nat) (entries : List (String × Int8)) : Prop where
  note : ∀ text ∈ m.note, text.utf8ByteSize < UInt64.size
  items : m.items.length < UInt64.size
  count : entries.length < UInt64.size
  keys : ∀ entry ∈ entries, entry.1.utf8ByteSize < UInt64.size
  pairs : ∀ key, m.pairs.entries.lookup key = entries.reverse.lookup key
  sender : ∀ a ∈ m.sender, a.StartsWithZeros i

theorem accepts_sender : (Format.axis .plain).option.Accepts fun used sender => ∃ i,
    (∀ a ∈ sender, a.StartsWithZeros i) ∧ used = layoutSender i sender := by
  refine (Format.accepts_option Format.accepts_axis).congr fun used sender => ?_
  constructor
  · rintro (⟨rfl, rfl⟩ | ⟨a, v, rfl, rfl, i, hzeros, rfl⟩)
    · exact ⟨0, nofun, rfl⟩
    · refine ⟨i, ?_, rfl⟩
      rintro _ ⟨⟩
      exact hzeros
  · rintro ⟨i, hzeros, rfl⟩
    cases sender with
    | none => exact .inl ⟨rfl, rfl⟩
    | some a => exact .inr ⟨a, _, rfl, rfl, i, hzeros a rfl, rfl⟩

open Format in
theorem accepts_format : (format .plain).Accepts fun used m => ∃ i entries,
    m.Spelling i entries ∧ used = m.layout i entries := by
  have hnote := strict_option strict_text roundTrips_text
  have hitems := roundTrips_list roundTrips_u16 fun _ hnil => nomatch hnil
  refine (accepts_map (accepts_pair_of_strict strict_bool roundTrips_bool <|
    accepts_pair_of_strict strict_char roundTrips_char <|
    accepts_pair_of_strict strict_i64 roundTrips_i64 <|
    accepts_pair_of_strict hnote (roundTrips_option roundTrips_text) <|
    accepts_pair_of_strict (strict_list strict_u16) hitems <|
    accepts_pair (accepts_dictionary strict_i8 roundTrips_i8) accepts_sender) _ _).congr
    fun used m => ?_
  constructor
  · rintro ⟨⟨flag, letter, delta, note, items, pairs, sender⟩, ⟨-, _, rfl, -, _, rfl, -, _, rfl,
      hnote, _, rfl, ⟨hitems, -⟩, _, rfl, _, _, rfl, ⟨entries, rfl, hcount, hkeys, hpairs⟩, i,
      hzeros, rfl⟩, rfl⟩
    refine ⟨i, entries, ⟨hnote, hitems, hcount, fun entry hentry => (hkeys entry hentry).1,
      Dictionary.ofList_eq_iff.mp hpairs, hzeros⟩, ?_⟩
    simp only [layout, pair, List.append_assoc]
  · rintro ⟨i, entries, h, rfl⟩
    refine ⟨(m.flag, m.letter, m.delta, m.note, m.items, m.pairs, m.sender), ⟨trivial, _, ?_,
      trivial, _, rfl, trivial, _, rfl, h.note, _, rfl, ⟨h.items, fun _ _ => trivial⟩, _, rfl,
      _, _, rfl, ⟨entries, rfl, h.count, fun entry hentry => ⟨h.keys entry hentry, trivial⟩,
        Dictionary.ofList_eq_iff.mpr h.pairs⟩, i, h.sender, rfl⟩, rfl⟩
    simp only [layout, pair, List.append_assoc]

variable {m : Report} {i : Nat} {entries : List (String × Int8)}

theorem Spelling.fits (h : m.Spelling i entries) : m.Fits where
  note := h.note
  items := h.items
  pairs := by
    rw [← Dictionary.ofList_eq_iff.mpr h.pairs]
    exact Nat.lt_of_le_of_lt (Dictionary.length_ofList_le entries) h.count
  keys entry hentry := by
    rw [← Dictionary.ofList_eq_iff.mpr h.pairs] at hentry
    exact h.keys entry (Dictionary.mem_of_mem_ofList hentry)

/-- A report that fits has the payload that is written for it. -/
theorem Fits.spelling (h : m.Fits) (hzeros : ∀ a ∈ m.sender, a.StartsWithZeros i) :
    m.Spelling i m.pairs.entries where
  note := h.note
  items := h.items
  count := h.pairs
  keys := h.keys
  pairs := Dictionary.ofList_eq_iff.mp (Dictionary.ofList_entries m.pairs)
  sender := hzeros

/-- If the dictionary has an entry, there is a payload with other entries. -/
theorem Fits.exists_spelling (h : m.Fits) (hne : m.pairs.entries ≠ [])
    (hzeros : ∀ a ∈ m.sender, a.StartsWithZeros i) :
    ∃ entries, m.Spelling i entries ∧ m.layout i entries ≠ m.layout i m.pairs.entries := by
  obtain ⟨entries, hpairs, hdiffers, hlen, hmem⟩ := Dictionary.exists_ofList_eq hne
  have hsize : 2 < UInt64.size := by decide
  have hcount : entries.length < UInt64.size := by have := h.pairs; omega
  have hkeys : ∀ entry ∈ entries, entry.1.utf8ByteSize < UInt64.size := fun entry hentry =>
    h.keys entry (hmem entry hentry)
  refine ⟨entries, ⟨h.note, h.items, hcount, hkeys, Dictionary.ofList_eq_iff.mp hpairs, hzeros⟩,
    fun hsame => hdiffers ?_⟩
  have hwrite := List.append_cancel_left (List.append_cancel_right hsame)
  exact (Format.roundTrips_entries Format.roundTrips_i8).write_inj
    ⟨hcount, fun entry hentry => ⟨hkeys entry hentry, trivial⟩⟩
    ⟨h.pairs, fun entry hentry => ⟨h.keys entry hentry, trivial⟩⟩ hwrite

end Report

namespace Axis

variable {a : Axis} {i : Nat}

theorem StartsWithZeros.one (h : a.StartsWithZeros i) (hi : i ≠ 0) : a.StartsWithZeros 1 := by
  refine ⟨by decide, ?_⟩
  have htake : (a.bytes.take i).take 1 = (List.replicate i 0).take 1 := by rw [h.2]
  rwa [List.take_take, List.take_replicate, min_eq_left (by omega)] at htake

theorem StartsWithZeros.eq_zero (h : a.StartsWithZeros i) (hone : ¬ a.StartsWithZeros 1) : i = 0 :=
  Decidable.byContradiction fun hi => hone (h.one hi)

end Axis

namespace MessageKind

theorem decode_axis {a : Axis} {payload : Bytes} :
    axis.codec.decode payload = .ok a ↔
      ∃ i, a.StartsWithZeros i ∧ payload = Bytes.littleEndian 8 (32 - i) ++ a.bytes.drop i := by
  rw [← Binary.Format.accepts_axis.decode_eq_ok_iff]
  exact Codec.decode_binary_eq_ok_iff

theorem decode_envelope {e : Envelope} {payload : Bytes} :
    envelope.codec.decode payload = .ok e ↔
      e.Fits ∧ ∃ i j, e.x.StartsWithZeros i ∧ e.y.StartsWithZeros j ∧
        payload = Frame.layout i j e := by
  have hdecode : envelope.codec.decode payload = .ok e ↔
      (Binary.Format.envelope .plain).decode payload = .ok e := Codec.decode_binary_eq_ok_iff
  rw [hdecode, Binary.Format.accepts_envelope.decode_eq_ok_iff]
  constructor
  · rintro ⟨i, j, hi, hj, hpayload, hr, hs, hbytes⟩
    exact ⟨⟨hpayload, hr, hs⟩, i, j, hi, hj, hbytes⟩
  · rintro ⟨h, i, j, hi, hj, hbytes⟩
    exact ⟨i, j, hi, hj, h.payload, h.r, h.s, hbytes⟩

theorem decode_report {m : Report} {payload : Bytes} :
    report.codec.decode payload = .ok m ↔
      ∃ i entries, m.Spelling i entries ∧ payload = m.layout i entries := by
  rw [← Report.accepts_format.decode_eq_ok_iff]
  exact Codec.decode_binary_eq_ok_iff

theorem existsUnique_axis (a : Axis) :
    (∃! payload, axis.codec.decode payload = .ok a) ↔ ¬ a.StartsWithZeros 1 := by
  simp only [decode_axis]
  constructor
  · rintro ⟨payload, -, hunique⟩ hone
    have hlen := congrArg List.length <|
      (hunique _ ⟨0, a.startsWithZeros_zero, rfl⟩).trans (hunique _ ⟨1, hone, rfl⟩).symm
    simp only [List.length_append, Bytes.length_littleEndian, List.length_drop,
      a.length_bytes] at hlen
    omega
  · intro hone
    refine ⟨_, ⟨0, a.startsWithZeros_zero, rfl⟩, ?_⟩
    rintro _ ⟨i, hi, rfl⟩
    rw [hi.eq_zero hone]

theorem existsUnique_envelope (e : Envelope) :
    (∃! payload, envelope.codec.decode payload = .ok e) ↔
      e.Fits ∧ ¬ e.x.StartsWithZeros 1 ∧ ¬ e.y.StartsWithZeros 1 := by
  simp only [decode_envelope]
  constructor
  · rintro ⟨payload, ⟨hfits, -⟩, hunique⟩
    have hlen : ∀ i j, e.x.StartsWithZeros i → e.y.StartsWithZeros j → i + j = 0 := by
      intro i j hi hj
      have hsame := (hunique _ ⟨hfits, i, j, hi, hj, rfl⟩).trans
        (hunique _ ⟨hfits, 0, 0, e.x.startsWithZeros_zero, e.y.startsWithZeros_zero, rfl⟩).symm
      have h := Frame.length_layout hi.1 hj.1 e
      have h₀ := Frame.length_layout (Nat.zero_le 32) (Nat.zero_le 32) e
      rw [hsame] at h
      omega
    exact ⟨hfits, fun hx => absurd (hlen 1 0 hx e.y.startsWithZeros_zero) (by decide),
      fun hy => absurd (hlen 0 1 e.x.startsWithZeros_zero hy) (by decide)⟩
  · rintro ⟨hfits, hx, hy⟩
    refine ⟨_, ⟨hfits, 0, 0, e.x.startsWithZeros_zero, e.y.startsWithZeros_zero, rfl⟩, ?_⟩
    rintro _ ⟨-, i, j, hi, hj, rfl⟩
    rw [hi.eq_zero hx, hj.eq_zero hy]

theorem existsUnique_report (m : Report) :
    (∃! payload, report.codec.decode payload = .ok m) ↔
      m.Fits ∧ m.pairs.entries = [] ∧ ∀ a ∈ m.sender, ¬ a.StartsWithZeros 1 := by
  simp only [decode_report]
  have hzero : ∀ a ∈ m.sender, a.StartsWithZeros 0 := fun a _ => a.startsWithZeros_zero
  constructor
  · rintro ⟨payload, ⟨_, _, h, -⟩, hunique⟩
    have hwritten := hunique _ ⟨0, _, h.fits.spelling hzero, rfl⟩
    refine ⟨h.fits, ?_, fun a ha hone => ?_⟩
    · by_contra hne
      obtain ⟨entries, hentries, hdiffers⟩ := h.fits.exists_spelling hne hzero
      exact hdiffers ((hunique _ ⟨0, entries, hentries, rfl⟩).trans hwritten.symm)
    · -- With a zero of the sender left out, the payload is shorter.
      have hones : ∀ a ∈ m.sender, a.StartsWithZeros 1 := by
        intro a' ha'
        rwa [Option.mem_unique ha' ha]
      have hshorter := hunique _ ⟨1, _, h.fits.spelling hones, rfl⟩
      have hlen := congrArg List.length (List.append_cancel_left (hshorter.trans hwritten.symm))
      rw [Option.mem_def.mp ha] at hlen
      simp only [Report.layoutSender, List.length_cons, List.length_append,
        Bytes.length_littleEndian, List.length_drop, a.length_bytes] at hlen
      omega
  · rintro ⟨hfits, hempty, hone⟩
    refine ⟨_, ⟨0, _, hfits.spelling hzero, rfl⟩, ?_⟩
    rintro _ ⟨i, entries, h, rfl⟩
    have hentries := h.pairs
    rw [hempty] at hentries ⊢
    rw [Dictionary.eq_nil_of_lookup hentries, Report.layout, Report.layout]
    cases hsender : m.sender with
    | none => rfl
    | some a => rw [(h.sender a hsender).eq_zero (hone a hsender)]

/-- What a message is read from, and which messages are read from one payload only. An axis
and an envelope may come without zeros in front of their axes. A report may come without
zeros in front of its sender, and with any entries of which the last one for each key is
the one in its dictionary. So a message has one payload exactly if its axes do not start
with a zero and it has no entries. -/
theorem payloads_of_message (a : Axis) (e : Envelope) (m : Report) :
    ((∀ payload, axis.codec.decode payload = .ok a ↔
        ∃ i, a.StartsWithZeros i ∧
          payload = Bytes.littleEndian 8 (32 - i) ++ a.bytes.drop i) ∧
      ((∃! payload, axis.codec.decode payload = .ok a) ↔ ¬ a.StartsWithZeros 1)) ∧
    ((∀ payload, envelope.codec.decode payload = .ok e ↔
        e.Fits ∧ ∃ i j, e.x.StartsWithZeros i ∧ e.y.StartsWithZeros j ∧
          payload = Frame.layout i j e) ∧
      ((∃! payload, envelope.codec.decode payload = .ok e) ↔
        e.Fits ∧ ¬ e.x.StartsWithZeros 1 ∧ ¬ e.y.StartsWithZeros 1)) ∧
    (∀ payload, report.codec.decode payload = .ok m ↔
      ∃ i entries, m.Spelling i entries ∧ payload = m.layout i entries) ∧
    ((∃! payload, report.codec.decode payload = .ok m) ↔
      m.Fits ∧ m.pairs.entries = [] ∧ ∀ sender ∈ m.sender, ¬ sender.StartsWithZeros 1) :=
  ⟨⟨fun _ => decode_axis, existsUnique_axis a⟩,
    ⟨fun _ => decode_envelope, existsUnique_envelope e⟩,
    fun _ => decode_report, existsUnique_report m⟩

/-- The number zero without any of its zeros and with one of them, by itself and in an
envelope, and two entries in either order. -/
theorem two_payloads :
    (axis.codec.decode (List.replicate 8 0) = .ok Axis.zero ∧
      axis.codec.decode (1 :: List.replicate 8 0) = .ok Axis.zero) ∧
    (envelope.codec.decode (List.replicate 44 0) = .ok Envelope.empty ∧
      envelope.codec.decode (List.replicate 4 0 ++ 1 :: List.replicate 40 0) =
        .ok Envelope.empty) ∧
    (∃ m : Report, m.pairs.entries = [("a", 2), ("b", 1)] ∧
      report.codec.decode ([0, 97] ++ List.replicate 17 0 ++ [2, 0, 0, 0, 0, 0, 0, 0] ++
        [1, 0, 0, 0, 0, 0, 0, 0, 97, 2] ++ [1, 0, 0, 0, 0, 0, 0, 0, 98, 1] ++ [0]) = .ok m ∧
      report.codec.decode ([0, 97] ++ List.replicate 17 0 ++ [2, 0, 0, 0, 0, 0, 0, 0] ++
        [1, 0, 0, 0, 0, 0, 0, 0, 98, 1] ++ [1, 0, 0, 0, 0, 0, 0, 0, 97, 2] ++ [0]) = .ok m) ∧
    ¬ ∀ (payload payload' : Bytes) (a : Axis), axis.codec.decode payload = .ok a →
      axis.codec.decode payload' = .ok a → payload = payload' := by
  refine ⟨⟨rfl, rfl⟩, ⟨rfl, rfl⟩,
    ⟨⟨false, 'a', 0, none, [], .ofList [("a", 2), ("b", 1)], none⟩, by decide, rfl, rfl⟩, ?_⟩
  intro h
  have hsame := h (List.replicate 8 0) (1 :: List.replicate 8 0) Axis.zero rfl rfl
  exact absurd hsame (by decide)

end MessageKind

end ConsensusEnvelope
