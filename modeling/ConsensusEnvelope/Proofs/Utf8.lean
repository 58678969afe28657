import ConsensusEnvelope.Text.Utf8

/-!
# Reading UTF-8 gives back the text that was written

A character is written as one to four bytes, by the size of its code point, and
`front` finds it again whatever comes behind. The lead byte names the width; the
ranges that it sets for the byte after it are the ones that keep out long forms,
surrogates and numbers that are too large, so a character meets them because its
code point is none of these. Continuation bytes carry six bits each.

A text is its characters one after another, so the pieces of its bytes are those
characters, and no fault is among them.

Nothing else is read as a character, for the same reasons: the lead byte is the one of
its width, and what the ranges keep out is just what would have been written in another
width. So the bytes of a text are the only ones that are read as that text.

What is read as a fault has no byte of ASCII in it, because lead bytes and continuation bytes
are not ASCII. So a lossy reading shows every character of ASCII that is there, and makes up
none.
-/

namespace ConsensusEnvelope.Utf8

theorem follow_continuation {more low high code seen : Nat} {b : UInt8} {rest : Bytes}
    (h : low ≤ b.toNat ∧ b.toNat ≤ high) :
    follow (more + 1) low high code seen (b :: rest) =
      follow more 0x80 0xbf (code * 64 + (b.toNat - 0x80)) (seen + 1) rest := by
  rw [follow, if_pos h]

theorem toNat_ofNat_of_lt {n : Nat} (h : n < 256) : (UInt8.ofNat n).toNat = n :=
  UInt8.toNat_ofNat_of_lt' h

/-- A continuation byte of a code point carries six of its bits. -/
theorem follow_ofNat {more low high code seen bits : Nat} {rest : Bytes} (hbits : bits < 64)
    (hlow : low ≤ bits + 0x80) (hhigh : bits + 0x80 ≤ high) :
    follow (more + 1) low high code seen (UInt8.ofNat (bits + 0x80) :: rest) =
      follow more 0x80 0xbf (code * 64 + bits) (seen + 1) rest := by
  have hb : (UInt8.ofNat (bits + 0x80)).toNat = bits + 0x80 := toNat_ofNat_of_lt (by omega)
  rw [follow_continuation (by omega), hb, Nat.add_sub_cancel]

theorem lead?_two {n : Nat} (hlow : 0x80 ≤ n) (hhigh : n < 0x800) :
    lead? (n / 64 + 0xc0) = some ⟨1, 0x80, 0xbf, n / 64⟩ := by
  rw [lead?, if_neg (by omega), if_pos (by omega), Nat.add_sub_cancel]

theorem lead?_three {n : Nat} (hlow : 0x800 ≤ n) (hhigh : n < 0x10000)
    (hvalid : n < 0xd800 ∨ 0xdfff < n) :
    ∃ low high, lead? (n / 4096 + 0xe0) = some ⟨2, low, high, n / 4096⟩ ∧
      low ≤ n / 64 % 64 + 0x80 ∧ n / 64 % 64 + 0x80 ≤ high := by
  rw [lead?, if_neg (by omega), if_neg (by omega)]
  by_cases hfirst : n / 4096 = 0
  · rw [hfirst, if_pos (by omega)]
    exact ⟨_, _, rfl, by omega, by omega⟩
  · rw [if_neg (by omega)]
    by_cases hsurrogate : n / 4096 = 13
    · rw [hsurrogate, if_pos (by omega)]
      exact ⟨_, _, rfl, by omega, by omega⟩
    · rw [if_neg (by omega), if_pos (by omega), Nat.add_sub_cancel]
      exact ⟨_, _, rfl, by omega, by omega⟩

theorem lead?_four {n : Nat} (hlow : 0x10000 ≤ n) (hhigh : n < 0x110000) :
    ∃ low high, lead? (n / 262144 + 0xf0) = some ⟨3, low, high, n / 262144⟩ ∧
      low ≤ n / 4096 % 64 + 0x80 ∧ n / 4096 % 64 + 0x80 ≤ high := by
  rw [lead?, if_neg (by omega), if_neg (by omega), if_neg (by omega), if_neg (by omega),
    if_neg (by omega)]
  by_cases hfirst : n / 262144 = 0
  · rw [hfirst, if_pos (by omega)]
    exact ⟨_, _, rfl, by omega, by omega⟩
  · rw [if_neg (by omega)]
    by_cases hlast : n / 262144 = 4
    · rw [hlast, if_neg (by omega), if_pos (by omega)]
      exact ⟨_, _, rfl, by omega, by omega⟩
    · rw [if_pos (by omega), Nat.add_sub_cancel]
      exact ⟨_, _, rfl, by omega, by omega⟩

theorem front_of_lead {n more low high code : Nat} (hlow : 0x80 ≤ n) (hhigh : n < 256)
    (h : lead? n = some ⟨more, low, high, code⟩) (rest : Bytes) :
    front (UInt8.ofNat n) rest = follow more low high code 1 rest := by
  rw [front, toNat_ofNat_of_lt hhigh, if_neg (by omega), h]

/-- The front of a byte string that begins with a character is that
character. -/
theorem front_encodeCode {n : Nat} (hvalid : n.isValidChar) (rest : Bytes) :
    ∃ b tail, encodeCode n = b :: tail ∧
      front b (tail ++ rest) = .char (Char.ofNat n) (tail.length + 1) := by
  have hvalid : n < 0xd800 ∨ 0xdfff < n ∧ n < 0x110000 := hvalid
  rw [encodeCode]
  split
  · next hone =>
      refine ⟨_, _, rfl, ?_⟩
      rw [front, toNat_ofNat_of_lt (by omega), if_pos hone]
      rfl
  · split
    · next hone htwo =>
        refine ⟨_, _, rfl, ?_⟩
        have hcode : n / 64 * 64 + n % 64 = n := by omega
        rw [front_of_lead (by omega) (by omega) (lead?_two (by omega) htwo),
          List.cons_append, follow_ofNat (by omega) (by omega) (by omega), follow, hcode]
        rfl
    · split
      · next htwo hthree =>
          obtain ⟨low, high, hlead, hlow, hhigh⟩ :=
            lead?_three (n := n) (by omega) hthree (by omega)
          refine ⟨_, _, rfl, ?_⟩
          have hcode : (n / 4096 * 64 + n / 64 % 64) * 64 + n % 64 = n := by omega
          rw [front_of_lead (by omega) (by omega) hlead, List.cons_append, List.cons_append,
            follow_ofNat (by omega) hlow hhigh,
            follow_ofNat (by omega) (by omega) (by omega), follow, hcode]
          rfl
      · next hthree =>
          obtain ⟨low, high, hlead, hlow, hhigh⟩ :=
            lead?_four (n := n) (by omega) (by omega)
          refine ⟨_, _, rfl, ?_⟩
          have hcode : ((n / 262144 * 64 + n / 4096 % 64) * 64 + n / 64 % 64) * 64 +
              n % 64 = n := by omega
          rw [front_of_lead (by omega) (by omega) hlead, List.cons_append, List.cons_append,
            List.cons_append, follow_ofNat (by omega) hlow hhigh,
            follow_ofNat (by omega) (by omega) (by omega),
            follow_ofNat (by omega) (by omega) (by omega), follow, hcode]
          rfl

theorem utf8EncodeChar_eq (c : Char) : String.utf8EncodeChar c = encodeCode c.toNat := by
  have hvalid : c.toNat < 0xd800 ∨ 0xdfff < c.toNat ∧ c.toNat < 0x110000 := c.valid
  have hval : c.val.toNat = c.toNat := rfl
  rw [String.utf8EncodeChar, encodeCode]
  simp only [hval]
  by_cases hone : c.toNat < 0x80
  · rw [if_pos (Nat.le_of_lt_succ hone), if_pos hone]
  · rw [if_neg (by omega), if_neg hone]
    by_cases htwo : c.toNat < 0x800
    · rw [if_pos (Nat.le_of_lt_succ htwo), if_pos htwo,
        Nat.mod_eq_of_lt (show c.toNat / 64 < 0x20 by omega)]
    · rw [if_neg (by omega), if_neg htwo]
      by_cases hthree : c.toNat < 0x10000
      · rw [if_pos (Nat.le_of_lt_succ hthree), if_pos hthree,
          Nat.mod_eq_of_lt (show c.toNat / 4096 < 0x10 by omega)]
      · rw [if_neg (by omega), if_neg hthree,
          Nat.mod_eq_of_lt (show c.toNat / 262144 < 0x08 by omega)]

/-- The front of a byte string that begins with a character is that
character. -/
theorem front_utf8EncodeChar (c : Char) (rest : Bytes) :
    ∃ b tail, String.utf8EncodeChar c = b :: tail ∧
      front b (tail ++ rest) = .char c (tail.length + 1) := by
  have hfront := front_encodeCode c.valid rest
  rw [show Char.ofNat c.val.toNat = c from Char.ofNat_toNat c] at hfront
  rw [utf8EncodeChar_eq]
  exact hfront

theorem utf8EncodeChar_of_lt {c : Char} (h : c.toNat < 128) :
    String.utf8EncodeChar c = [UInt8.ofNat c.toNat] := by
  rw [utf8EncodeChar_eq, encodeCode, if_pos h]

/-- All bytes of a character outside of ASCII are outside of ASCII. -/
theorem le_of_mem_utf8EncodeChar {c : Char} (h : 128 ≤ c.toNat) :
    ∀ b ∈ String.utf8EncodeChar c, 128 ≤ b.toNat := by
  have hvalid : c.toNat < 0xd800 ∨ 0xdfff < c.toNat ∧ c.toNat < 0x110000 := c.valid
  have hbyte (n : Nat) (hn : 128 ≤ n ∧ n < 256) : 128 ≤ (UInt8.ofNat n).toNat := by
    rw [toNat_ofNat_of_lt hn.2]
    exact hn.1
  rw [utf8EncodeChar_eq, encodeCode, if_neg (by omega)]
  split
  · simp only [List.forall_mem_cons]
    exact ⟨hbyte _ (by omega), hbyte _ (by omega), nofun⟩
  · split
    · simp only [List.forall_mem_cons]
      exact ⟨hbyte _ (by omega), hbyte _ (by omega), hbyte _ (by omega), nofun⟩
    · simp only [List.forall_mem_cons]
      exact ⟨hbyte _ (by omega), hbyte _ (by omega), hbyte _ (by omega), hbyte _ (by omega), nofun⟩

/-! ## Texts -/

theorem encode_eq_flatMap (text : String) :
    encode text = text.toList.flatMap String.utf8EncodeChar := by
  rw [encode, ← String.utf8Encode_toList, List.utf8Encode, List.data_toByteArray]

theorem encode_append (a b : String) : encode (a ++ b) = encode a ++ encode b := by
  rw [encode_eq_flatMap, String.toList_append, List.flatMap_append, ← encode_eq_flatMap,
    ← encode_eq_flatMap]

theorem length_encode (text : String) : (encode text).length = text.utf8ByteSize := by
  rw [encode, Array.length_toList]
  rfl

theorem encode_inj {text text' : String} : encode text = encode text' ↔ text = text' := by
  rw [encode, encode, Array.toList_inj, ← ByteArray.ext_iff, String.toByteArray_inj]

theorem piecesFrom_append (found : List Piece) (skipped rest : Bytes) :
    piecesFrom skipped.length found (skipped ++ rest) = piecesFrom 0 found rest := by
  induction skipped with
  | nil => rfl
  | cons b skipped ih => exact ih

theorem piecesFrom_flatMap (chars : List Char) (found : List Piece) :
    ∃ widths : List Nat, widths.length = chars.length ∧
      piecesFrom 0 found (chars.flatMap String.utf8EncodeChar) =
        found.reverse ++ List.zipWith Piece.char chars widths := by
  induction chars generalizing found with
  | nil => exact ⟨[], rfl, by simp [piecesFrom]⟩
  | cons c chars ih =>
      obtain ⟨b, tail, hbytes, hfront⟩ :=
        front_utf8EncodeChar c (chars.flatMap String.utf8EncodeChar)
      obtain ⟨widths, hlen, hpieces⟩ := ih (.char c (tail.length + 1) :: found)
      refine ⟨(tail.length + 1) :: widths, by simp [hlen], ?_⟩
      rw [List.flatMap_cons, hbytes, List.cons_append, piecesFrom, hfront]
      dsimp only
      rw [Nat.add_sub_cancel, piecesFrom_append, hpieces]
      simp

theorem charsFrom_zipWith (index : Nat) (found chars : List Char) (widths : List Nat)
    (hlen : widths.length = chars.length) :
    charsFrom index found (List.zipWith Piece.char chars widths) =
      .ok (found.reverse ++ chars) := by
  induction chars generalizing index found widths with
  | nil => simp [charsFrom]
  | cons c chars ih =>
      cases widths with
      | nil => cases hlen
      | cons width widths =>
          rw [List.zipWith_cons_cons, charsFrom, ih _ _ _ (Nat.succ.inj hlen)]
          simp

/-- A text is read back from its bytes. -/
theorem decode_encode (text : String) : decode (encode text) = .ok text := by
  obtain ⟨widths, hlen, hpieces⟩ := piecesFrom_flatMap text.toList []
  rw [decode, encode_eq_flatMap, pieces, hpieces, List.reverse_nil, List.nil_append,
    charsFrom_zipWith 0 [] _ _ hlen]
  exact congrArg Except.ok String.ofList_toList

theorem map_shown_zipWith (chars : List Char) (widths : List Nat)
    (hlen : widths.length = chars.length) :
    (List.zipWith Piece.char chars widths).map Piece.shown = chars := by
  induction chars generalizing widths with
  | nil => rfl
  | cons c chars ih =>
      cases widths with
      | nil => cases hlen
      | cons width widths =>
          rw [List.zipWith_cons_cons, List.map_cons, ih widths (Nat.succ.inj hlen), Piece.shown]

/-- The bytes of a text are shown as that text. -/
theorem lossy_encode (text : String) : lossy (encode text) = text := by
  obtain ⟨widths, hlen, hpieces⟩ := piecesFrom_flatMap text.toList []
  rw [lossy, encode_eq_flatMap, pieces, hpieces, List.reverse_nil, List.nil_append,
    map_shown_zipWith _ _ hlen, String.ofList_toList]

/-! ## No other bytes are read -/

variable {more low high code seen width n : Nat} {b : UInt8} {bytes rest : Bytes} {c : Char}

theorem follow_zero_eq_char (h : follow 0 low high code seen bytes = .char c width) :
    c = Char.ofNat code ∧ width = seen := by
  rw [follow] at h
  cases h
  exact ⟨rfl, rfl⟩

theorem follow_succ_eq_char (hlow : 0x80 ≤ low) (hhigh : high ≤ 0xbf)
    (h : follow (more + 1) low high code seen bytes = .char c width) :
    ∃ bits rest, bytes = UInt8.ofNat (bits + 0x80) :: rest ∧ bits < 64 ∧
      low ≤ bits + 0x80 ∧ bits + 0x80 ≤ high ∧
      follow more 0x80 0xbf (code * 64 + bits) (seen + 1) rest = .char c width := by
  cases bytes with
  | nil => rw [follow] at h; cases h
  | cons b rest =>
      rw [follow] at h
      split at h
      · next hrange =>
          have hbits : b.toNat - 0x80 + 0x80 = b.toNat := by omega
          refine ⟨b.toNat - 0x80, rest, ?_, by omega, by omega, by omega, h⟩
          rw [hbits, UInt8.ofNat_toNat]
      · cases h

/-- What a lead byte says: how many bytes follow, its bits of the code point, and the
range that rules out what is too small, too large or a surrogate. -/
theorem lead?_cases {lead : Lead} (h : lead? n = some lead) :
    (lead.more = 1 ∧ n = lead.code + 0xc0 ∧ 2 ≤ lead.code ∧ lead.code < 32 ∧
      lead.low = 0x80 ∧ lead.high = 0xbf) ∨
    (lead.more = 2 ∧ n = lead.code + 0xe0 ∧ lead.code < 16 ∧ 0x80 ≤ lead.low ∧
      lead.high ≤ 0xbf ∧ (lead.code = 0 → 0xa0 ≤ lead.low) ∧
      (lead.code = 13 → lead.high ≤ 0x9f)) ∨
    (lead.more = 3 ∧ n = lead.code + 0xf0 ∧ lead.code ≤ 4 ∧ 0x80 ≤ lead.low ∧
      lead.high ≤ 0xbf ∧ (lead.code = 0 → 0x90 ≤ lead.low) ∧
      (lead.code = 4 → lead.high ≤ 0x8f)) := by
  simp only [lead?] at h
  split at h
  · cases h
  split at h
  · cases h
    exact .inl ⟨rfl, by dsimp only; omega, by dsimp only; omega, by dsimp only; omega, rfl, rfl⟩
  iterate 3
    split at h
    · cases h
      refine .inr (.inl ⟨rfl, ?_, ?_, ?_, ?_, ?_, ?_⟩) <;> dsimp only <;> omega
  iterate 3
    split at h
    · cases h
      refine .inr (.inr ⟨rfl, ?_, ?_, ?_, ?_, ?_, ?_⟩) <;> dsimp only <;> omega
  cases h

theorem utf8EncodeChar_ofNat (hvalid : n.isValidChar) :
    String.utf8EncodeChar (Char.ofNat n) = encodeCode n := by
  rw [utf8EncodeChar_eq, Char.ofNat, dif_pos hvalid]
  rfl

/-- The bytes of a character are the only ones that are read as that character. -/
theorem front_eq_char (h : front b rest = .char c width) :
    ∃ tail rest', rest = tail ++ rest' ∧ width = tail.length + 1 ∧
      String.utf8EncodeChar c = b :: tail := by
  rw [front] at h
  split at h
  · next hone =>
      cases h
      refine ⟨[], rest, rfl, rfl, ?_⟩
      rw [utf8EncodeChar_ofNat (.inl (by omega)), encodeCode, if_pos hone, UInt8.ofNat_toNat]
  · split at h
    · cases h
    · next lead hlead =>
        -- The width is settled by the lead byte, and its range by the same byte rules out the
        -- code points that belong to another width.
        rcases lead?_cases hlead with
          ⟨hmore, hb, hmin, hmax, hlow, hhigh⟩ | ⟨hmore, hb, hmax, hlow, hhigh, hmin, hsurrogate⟩ |
          ⟨hmore, hb, hmax, hlow, hhigh, hmin, hlarge⟩
        · rw [hmore] at h
          obtain ⟨x, rest', rfl, hx, -, -, h⟩ :=
            follow_succ_eq_char (by omega) (by omega) h
          obtain ⟨rfl, rfl⟩ := follow_zero_eq_char h
          refine ⟨[UInt8.ofNat (x + 0x80)], rest', rfl, rfl, ?_⟩
          have hdiv : (lead.code * 64 + x) / 64 = lead.code := by omega
          have hmod : (lead.code * 64 + x) % 64 = x := by omega
          rw [utf8EncodeChar_ofNat (.inl (by omega)), encodeCode, if_neg (by omega),
            if_pos (by omega), hdiv, hmod, ← hb, UInt8.ofNat_toNat]
        · rw [hmore] at h
          obtain ⟨x, rest₁, rfl, hx, hxlow, hxhigh, h⟩ := follow_succ_eq_char hlow hhigh h
          obtain ⟨y, rest', rfl, hy, -, -, h⟩ := follow_succ_eq_char (by omega) (by omega) h
          obtain ⟨rfl, rfl⟩ := follow_zero_eq_char h
          refine ⟨[UInt8.ofNat (x + 0x80), UInt8.ofNat (y + 0x80)], rest', rfl, rfl, ?_⟩
          generalize hn : (lead.code * 64 + x) * 64 + y = n
          have hvalid : n.isValidChar := by
            show n < 0xd800 ∨ 0xdfff < n ∧ n < 0x110000
            omega
          have h₁ : n / 4096 = lead.code := by omega
          have h₂ : n / 64 % 64 = x := by omega
          have h₃ : n % 64 = y := by omega
          rw [utf8EncodeChar_ofNat hvalid, encodeCode, if_neg (by omega),
            if_neg (by omega), if_pos (by omega), h₁, h₂, h₃, ← hb, UInt8.ofNat_toNat]
        · rw [hmore] at h
          obtain ⟨x, rest₁, rfl, hx, hxlow, hxhigh, h⟩ := follow_succ_eq_char hlow hhigh h
          obtain ⟨y, rest₂, rfl, hy, -, -, h⟩ := follow_succ_eq_char (by omega) (by omega) h
          obtain ⟨z, rest', rfl, hz, -, -, h⟩ := follow_succ_eq_char (by omega) (by omega) h
          obtain ⟨rfl, rfl⟩ := follow_zero_eq_char h
          refine ⟨[UInt8.ofNat (x + 0x80), UInt8.ofNat (y + 0x80), UInt8.ofNat (z + 0x80)],
            rest', rfl, rfl, ?_⟩
          generalize hn : ((lead.code * 64 + x) * 64 + y) * 64 + z = n
          have hvalid : n.isValidChar := by
            show n < 0xd800 ∨ 0xdfff < n ∧ n < 0x110000
            omega
          have h₁ : n / 262144 = lead.code := by omega
          have h₂ : n / 4096 % 64 = x := by omega
          have h₃ : n / 64 % 64 = y := by omega
          have h₄ : n % 64 = z := by omega
          rw [utf8EncodeChar_ofNat hvalid, encodeCode, if_neg (by omega),
            if_neg (by omega), if_neg (by omega), h₁, h₂, h₃, h₄, ← hb, UInt8.ofNat_toNat]

/-! ## No other bytes are read as a text -/

theorem piecesFrom_eq_append (skip : Nat) (found : List Piece) (bytes : Bytes) :
    piecesFrom skip found bytes = found.reverse ++ piecesFrom skip [] bytes := by
  induction bytes generalizing skip found with
  | nil => simp [piecesFrom]
  | cons b rest ih =>
      cases skip with
      | succ skip => exact ih skip found
      | zero =>
          simp only [piecesFrom]
          split
          · rw [ih, ih _ [_]]; simp
          · rw [ih, ih _ [_]]; simp
          · simp

theorem pieces_of_char {tail rest : Bytes}
    (h : front b (tail ++ rest) = .char c (tail.length + 1)) :
    pieces (b :: (tail ++ rest)) = .char c (tail.length + 1) :: pieces rest := by
  rw [pieces, piecesFrom, h]
  dsimp only
  rw [Nat.add_sub_cancel, piecesFrom_append, piecesFrom_eq_append]
  rfl

/-- Characters come out only of bytes without a fault, and then out of their own bytes. -/
theorem flatMap_of_charsFrom {index : Nat} {found all : List Char} (bytes : Bytes)
    (h : charsFrom index found (pieces bytes) = .ok all) :
    ∃ chars, all = found.reverse ++ chars ∧ bytes = chars.flatMap String.utf8EncodeChar := by
  match bytes with
  | [] =>
      cases h
      exact ⟨[], (List.append_nil _).symm, rfl⟩
  | b :: rest =>
      cases hfront : front b rest with
      | invalid width =>
          rw [pieces, piecesFrom, hfront] at h
          dsimp only at h
          rw [piecesFrom_eq_append] at h
          cases h
      | incomplete =>
          rw [pieces, piecesFrom, hfront] at h
          cases h
      | char c width =>
          obtain ⟨tail, rest', hsplit, rfl, hbytes⟩ := front_eq_char hfront
          rw [hsplit] at hfront
          rw [hsplit, pieces_of_char hfront, charsFrom] at h
          obtain ⟨chars, rfl, hrest⟩ := flatMap_of_charsFrom rest' h
          refine ⟨c :: chars, by simp, ?_⟩
          rw [List.flatMap_cons, hbytes, ← hrest, hsplit]
          rfl
termination_by bytes.length
decreasing_by rw [hsplit, List.length_cons, List.length_append]; omega

/-- Bytes that are read as a text are the bytes of that text. -/
theorem encode_of_decode {bytes : Bytes} {text : String} (h : decode bytes = .ok text) :
    encode text = bytes := by
  rw [decode] at h
  cases hchars : charsFrom 0 [] (pieces bytes) with
  | error fault => rw [hchars] at h; cases h
  | ok all =>
      rw [hchars] at h
      cases h
      obtain ⟨chars, rfl, hbytes⟩ := flatMap_of_charsFrom bytes hchars
      rw [encode_eq_flatMap, String.toList_ofList, hbytes]

theorem decode?_eq_some_iff {bytes : Bytes} {text : String} :
    decode? bytes = some text ↔ bytes = encode text := by
  constructor
  · intro h
    cases hdecode : decode bytes with
    | error fault => rw [decode?, hdecode] at h; cases h
    | ok found =>
        rw [decode?, hdecode] at h
        cases h
        exact (encode_of_decode hdecode).symm
  · rintro rfl
    rw [decode?, decode_encode]
    rfl

/-! ## Faults hold no ASCII -/

theorem follow_eq_invalid (hlow : 128 ≤ low)
    (h : follow more low high code seen bytes = .invalid width) :
    ∃ tail rest, bytes = tail ++ rest ∧ width = seen + tail.length ∧
      ∀ b ∈ tail, 128 ≤ b.toNat := by
  induction more generalizing low high code seen bytes with
  | zero => rw [follow] at h; cases h
  | succ more ih =>
      cases bytes with
      | nil => rw [follow] at h; cases h
      | cons b bytes =>
          rw [follow] at h
          split at h
          · next hrange =>
              -- The byte is in a range above ASCII, and so are the ranges of those behind it.
              obtain ⟨tail, rest, rfl, rfl, htail⟩ := ih (by omega) h
              refine ⟨b :: tail, rest, rfl, ?_, List.forall_mem_cons.mpr ⟨by omega, htail⟩⟩
              rw [List.length_cons]
              omega
          · cases h
            exact ⟨[], b :: bytes, rfl, rfl, nofun⟩

theorem follow_eq_incomplete (hlow : 128 ≤ low)
    (h : follow more low high code seen bytes = .incomplete) : ∀ b ∈ bytes, 128 ≤ b.toNat := by
  induction more generalizing low high code seen bytes with
  | zero => rw [follow] at h; cases h
  | succ more ih =>
      cases bytes with
      | nil => exact nofun
      | cons b bytes =>
          rw [follow] at h
          split at h
          · next hrange => exact List.forall_mem_cons.mpr ⟨by omega, ih (by omega) h⟩
          · cases h

theorem le_low_of_lead? {lead : Lead} (h : lead? n = some lead) : 128 ≤ lead.low := by
  rcases lead?_cases h with h | h | h <;> omega

theorem front_eq_invalid (h : front b rest = .invalid width) :
    ∃ tail rest', rest = tail ++ rest' ∧ width = tail.length + 1 ∧
      ∀ x ∈ b :: tail, 128 ≤ x.toNat := by
  rw [front] at h
  split at h
  · cases h
  · next hb =>
      split at h
      · cases h
        exact ⟨[], rest, rfl, rfl, List.forall_mem_cons.mpr ⟨by omega, nofun⟩⟩
      · next lead hlead =>
          obtain ⟨tail, rest', rfl, rfl, htail⟩ := follow_eq_invalid (le_low_of_lead? hlead) h
          exact ⟨tail, rest', rfl, Nat.add_comm _ _, List.forall_mem_cons.mpr ⟨by omega, htail⟩⟩

theorem front_eq_incomplete (h : front b rest = .incomplete) :
    ∀ x ∈ b :: rest, 128 ≤ x.toNat := by
  rw [front] at h
  split at h
  · cases h
  · next hb =>
      split at h
      · cases h
      · next lead hlead =>
          have hrest := follow_eq_incomplete (le_low_of_lead? hlead) h
          exact List.forall_mem_cons.mpr ⟨by omega, hrest⟩

theorem pieces_of_invalid {tail : Bytes}
    (h : front b (tail ++ rest) = .invalid (tail.length + 1)) :
    pieces (b :: (tail ++ rest)) = .invalid (tail.length + 1) :: pieces rest := by
  rw [pieces, piecesFrom, h]
  dsimp only
  rw [Nat.add_sub_cancel, piecesFrom_append, piecesFrom_eq_append]
  rfl

variable {a : Char}

theorem count_of_le (ha : a.toNat < 128) (h : ∀ b ∈ bytes, 128 ≤ b.toNat) :
    bytes.count (UInt8.ofNat a.toNat) = 0 := by
  rw [List.count_eq_zero]
  intro hmem
  have hle := h _ hmem
  rw [toNat_ofNat_of_lt (by omega)] at hle
  omega

theorem ne_replacement (ha : a.toNat < 128) : '\uFFFD' ≠ a := by
  intro heq
  rw [← heq] at ha
  exact absurd ha (by decide)

theorem count_utf8EncodeChar (ha : a.toNat < 128) (c : Char) :
    (String.utf8EncodeChar c).count (UInt8.ofNat a.toNat) = [c].count a := by
  rcases Nat.lt_or_ge c.toNat 128 with hc | hc
  · have hinj : UInt8.ofNat c.toNat = UInt8.ofNat a.toNat ↔ c = a := by
      rw [← UInt8.toNat_inj, toNat_ofNat_of_lt (by omega), toNat_ofNat_of_lt (by omega)]
      exact Char.toNat_inj
    rw [utf8EncodeChar_of_lt hc, List.count_singleton, List.count_singleton]
    simp only [beq_iff_eq, hinj]
  · rw [count_of_le ha (le_of_mem_utf8EncodeChar hc), eq_comm, List.count_eq_zero,
      List.mem_singleton]
    intro heq
    rw [heq] at ha
    omega

/-- The recursion is on the bytes: a piece takes up at least one of them. -/
theorem count_shown (ha : a.toNat < 128) (bytes : Bytes) :
    ((pieces bytes).map Piece.shown).count a = bytes.count (UInt8.ofNat a.toNat) := by
  match bytes with
  | [] => rfl
  | b :: rest =>
      cases hfront : front b rest with
      | char c width =>
          obtain ⟨tail, rest', hsplit, rfl, hbytes⟩ := front_eq_char hfront
          rw [hsplit] at hfront
          rw [hsplit, pieces_of_char hfront, List.map_cons, ← List.singleton_append,
            List.count_append, count_shown ha rest', ← List.cons_append, List.count_append,
            ← hbytes, count_utf8EncodeChar ha, Piece.shown]
      | invalid width =>
          obtain ⟨tail, rest', hsplit, rfl, htail⟩ := front_eq_invalid hfront
          rw [hsplit] at hfront
          rw [hsplit, pieces_of_invalid hfront, List.map_cons, Piece.shown,
            List.count_cons_of_ne (ne_replacement ha), count_shown ha rest', ← List.cons_append,
            List.count_append, count_of_le ha htail, Nat.zero_add]
      | incomplete =>
          rw [count_of_le ha (front_eq_incomplete hfront), pieces, piecesFrom, hfront]
          exact List.count_cons_of_ne (ne_replacement ha)
termination_by bytes.length
decreasing_by all_goals rw [hsplit, List.length_cons, List.length_append]; omega

/-- A character of ASCII is shown as often as its byte occurs. -/
theorem count_lossy (ha : a.toNat < 128) (bytes : Bytes) :
    (lossy bytes).toList.count a = bytes.count (UInt8.ofNat a.toNat) := by
  rw [lossy, String.toList_ofList, count_shown ha]

end ConsensusEnvelope.Utf8
