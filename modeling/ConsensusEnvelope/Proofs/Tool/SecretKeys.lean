import ConsensusEnvelope.Proofs.Tool.RoundTrip

/-!
# Whose key a text is

The secret key on the command line is meant to be 64 digits. What is read are the bytes that
the digits spell, and these may be fewer than 32: down to 24 bytes stand for their value. So a
text of 48 digits or more is taken for the key of the digits that it has behind as many zeros
as are missing, whoever took them away.

Filled up to 64 digits, a text determines the key and is determined by it. And a key determines
the sender: different scalars below the order are different multiples of the base point. So two
texts sign as the same sender exactly if they agree when filled up, blanks and the case of
letters apart. For texts of one length, such as 64, filling up makes no difference; for texts
of different lengths it does.
-/

namespace ConsensusEnvelope

open Secp256k1

/-! ## Digits behind zeros -/

namespace Hex

theorem chars_replicate_zero (count : Nat) :
    chars (List.replicate count 0) = List.replicate (2 * count) '0' := by
  induction count with
  | zero => rfl
  | succ count ih =>
      have hzero : chars [0] = ['0', '0'] := by decide
      rw [List.replicate_succ, ← List.singleton_append, chars_append, ih, hzero]
      rfl

theorem chars_leftpad (width : Nat) (bytes : Bytes) :
    chars (bytes.leftpad width 0) = (chars bytes).leftpad (2 * width) '0' := by
  rw [List.leftpad, List.leftpad, chars_append, chars_replicate_zero, length_chars,
    Nat.mul_sub]

/-- Digits that make up a byte string when filled up are those of its end, and the bytes in
front of it are zeros. -/
theorem exists_of_leftpad_eq_chars {digits : List Char} {bytes : Bytes}
    (heven : digits.length % 2 = 0)
    (h : digits.leftpad (2 * bytes.length) '0' = chars bytes) :
    ∃ short : Bytes, digits = chars short ∧ bytes = short.leftpad bytes.length 0 := by
  have hlength := congrArg List.length h
  rw [List.length_leftpad, length_chars] at hlength
  let missing := bytes.length - digits.length / 2
  have hmissing : 2 * bytes.length - digits.length = 2 * missing := by omega
  have hfront : (bytes.take missing).length = missing := by
    rw [List.length_take]
    omega
  have hback : (bytes.drop missing).length = bytes.length - missing := List.length_drop
  have hsplit : chars (List.replicate missing 0) ++ digits =
      chars (bytes.take missing) ++ chars (bytes.drop missing) := by
    rw [← chars_append, List.take_append_drop, ← h, chars_replicate_zero, List.leftpad, hmissing]
  obtain ⟨hzeros, hdigits⟩ := List.append_inj hsplit (by
    rw [length_chars, length_chars, hfront, List.length_replicate])
  refine ⟨bytes.drop missing, hdigits, ?_⟩
  have hpadding : bytes.length - (bytes.drop missing).length = missing := by omega
  rw [List.leftpad, hpadding, encode_inj (congrArg String.ofList hzeros), List.take_append_drop]

end Hex

/-! ## Keys and senders -/

namespace Secp256k1.SecretKey

variable {key key' : SecretKey}

theorem toBytes_inj (h : key.toBytes = key'.toBytes) : key = key' := by
  have hread := ofBytes?_toBytes key
  rw [h, ofBytes?_toBytes] at hread
  exact (Option.some.inj hread).symm

/-- Different secret keys have different public keys. -/
theorem eq_of_publicKey? {publicKey : PublicKey} (h : key.publicKey? = some publicKey)
    (h' : key'.publicKey? = some publicKey) : key = key' := by
  have hmultiple := element_publicKey h
  rw [element_publicKey h', smul_generator_eq_iff, ZMod.natCast_eq_natCast_iff] at hmultiple
  have hscalar := hmultiple.eq_of_lt_of_lt key'.lt_order key.lt_order
  refine toBytes_inj ?_
  rw [toBytes, toBytes, hscalar]

theorem eq_of_ofSecretKey {sender : Coordinate} (h : Coordinate.ofSecretKey key = .ok sender)
    (h' : Coordinate.ofSecretKey key' = .ok sender) : key = key' := by
  obtain ⟨publicKey, hkey, -⟩ := key.exists_publicKey
  refine eq_of_publicKey? hkey ?_
  rw [← Coordinate.publicKey?_of_ofSecretKey h', Coordinate.publicKey?_of_ofSecretKey h, hkey]

theorem toBytes_eq_leftpad {bytes : Bytes} (hlength : bytes.length ≤ 32)
    (hvalue : key.scalar = bytes.value) : key.toBytes = bytes.leftpad 32 0 := by
  refine Bytes.eq_of_value_eq ?_ ?_
  · rw [length_toBytes, List.length_leftpad, max_eq_left hlength]
  · rw [value_toBytes, Bytes.value_leftpad, hvalue]

end Secp256k1.SecretKey

namespace Tool

variable {env env' : Environment} {text text' : String} {bytes : Bytes} {key key' : SecretKey}

/-! ## Digits of a key -/

/-- The digits of a text in lower case, filled up with zeros in front to 64 digits. -/
def fullDigits (text : String) : List Char :=
  (Text.trim text).toLower.toList.leftpad 64 '0'

theorem spells_iff : Spells text bytes ↔ (Text.trim text).toLower = Hex.encode bytes := by
  rw [← hexArgument_eq_ok_iff, hexArgument, Hex.decode_utf8_encode_eq_ok_iff]

theorem Spells.length_trim (h : Spells text bytes) :
    (Text.trim text).length = 2 * bytes.length := by
  rw [← Text.length_toLower, spells_iff.mp h, Hex.length_encode]

theorem Spells.fullDigits_eq (h : Spells text bytes) :
    fullDigits text = Hex.chars (bytes.leftpad 32 0) := by
  rw [fullDigits, spells_iff.mp h, Hex.toList_encode, Hex.chars_leftpad]

theorem Names.fullDigits_eq (h : Names text key) : fullDigits text = Hex.chars key.toBytes := by
  obtain ⟨secret, hspells, hread⟩ := h
  obtain ⟨⟨-, hlength⟩, hvalue⟩ := SecretKey.ofBytes?_eq_some_iff.mp hread
  rw [hspells.fullDigits_eq, SecretKey.toBytes_eq_leftpad hlength hvalue]

/-- A text names a key if it has an even number of digits, from 48 to 64, and they are those
of the key when filled up. -/
theorem names_iff : Names text key ↔
    48 ≤ (Text.trim text).length ∧ (Text.trim text).length ≤ 64 ∧
      (Text.trim text).length % 2 = 0 ∧ fullDigits text = (Hex.encode key.toBytes).toList := by
  rw [Hex.toList_encode]
  constructor
  · intro h
    have hdigits := h.fullDigits_eq
    obtain ⟨secret, hspells, hread⟩ := h
    obtain ⟨⟨hlow, hhigh⟩, -⟩ := SecretKey.ofBytes?_eq_some_iff.mp hread
    have hlength := hspells.length_trim
    exact ⟨by omega, by omega, by omega, hdigits⟩
  · rintro ⟨hlow, -, heven, hdigits⟩
    have hwidth := key.length_toBytes
    have hlength : (Text.trim text).toLower.toList.length = (Text.trim text).length := by
      rw [String.length_toList, Text.length_toLower]
    have hpadded : (Text.trim text).toLower.toList.leftpad (2 * key.toBytes.length) '0' =
        Hex.chars key.toBytes := by
      rw [hwidth]
      exact hdigits
    obtain ⟨short, hshort, hbytes⟩ := Hex.exists_of_leftpad_eq_chars (by omega) hpadded
    have hcount := congrArg List.length hbytes
    rw [hshort, Hex.length_chars] at hlength
    rw [List.length_leftpad, hwidth] at hcount
    refine ⟨short, spells_iff.mpr ?_, SecretKey.ofBytes?_eq_some_iff.mpr ⟨by omega, ?_⟩⟩
    · rw [← String.toList_inj, hshort, Hex.toList_encode]
    · rw [← key.value_toBytes, hbytes, Bytes.value_leftpad]

/-- Two texts name the same key if their digits agree when filled up. -/
theorem Names.eq_iff (h : Names text key) (h' : Names text' key') :
    key = key' ↔ fullDigits text = fullDigits text' := by
  rw [h.fullDigits_eq, h'.fullDigits_eq]
  constructor
  · rintro rfl
    rfl
  · intro hdigits
    exact SecretKey.toBytes_inj (Hex.encode_inj (congrArg String.ofList hdigits))

/-- For texts of one length, nothing is filled up. -/
theorem fullDigits_eq_iff (h : (Text.trim text).length = (Text.trim text').length) :
    fullDigits text = fullDigits text' ↔
      (Text.trim text).toLower = (Text.trim text').toLower := by
  rw [fullDigits, fullDigits, List.leftpad, List.leftpad, String.length_toList,
    String.length_toList, Text.length_toLower, Text.length_toLower, h,
    List.append_cancel_left_eq, String.toList_inj]

/-! ## Runs that sign -/

/-- A run signs as a sender if it succeeds and prints the digits of a frame that is read as an
envelope of that sender. -/
def SignsAs (settings : Settings) (output : Output) (sender : Coordinate) : Prop :=
  ∃ frame e, output = { status := 0, stdout := Hex.encode frame ++ "\n", stderr := "" } ∧
    Frame.decode settings frame = .ok e ∧ e.coordinate = sender

variable {arguments arguments' : List String} {argument argument' : PayloadArgument}
  {random random' : Bytes} {sender sender' : Coordinate}

theorem signsAs_of_signed {payload : Bytes} {e : Envelope}
    (hparse : Command.parse env arguments = .ok (.sign text argument))
    (hpayload : argument.Denotes payload) (hkey : Names text key)
    (hsigned : Envelope.signed env.settings payload key random = .ok e) :
    SignsAs env.settings (run env arguments random) e.coordinate := by
  have hsign : sign env.settings text argument random = .ok _ :=
    sign_eq_ok_iff.mpr ⟨payload, key, e, hpayload, hkey, hsigned, rfl⟩
  have hsize := (Envelope.signed_eq_ok_iff.mp hsigned).1
  have hframe := Envelope.length_encode_of_signed hsigned
  exact ⟨_, e, run_sign hparse hsign, Frame.decode_encode_iff.mpr (by omega), rfl⟩

/-- A run that succeeds signs as the sender of the key that the text names. -/
theorem exists_signsAs (hparse : Command.parse env arguments = .ok (.sign text argument))
    (hstatus : (run env arguments random).status = 0) :
    ∃ key sender, Names text key ∧ Coordinate.ofSecretKey key = .ok sender ∧
      SignsAs env.settings (run env arguments random) sender := by
  obtain ⟨line, hline⟩ := (status_run_sign_iff hparse).mp hstatus
  obtain ⟨payload, key, e, hpayload, hkey, hsigned, -⟩ := sign_eq_ok_iff.mp hline
  exact ⟨key, e.coordinate, hkey, Envelope.coordinate_of_signed hsigned,
    signsAs_of_signed hparse hpayload hkey hsigned⟩

theorem SignsAs.unique {settings : Settings} {output : Output} (h : SignsAs settings output sender)
    (h' : SignsAs settings output sender') : sender = sender' := by
  obtain ⟨frame, e, rfl, hdecode, rfl⟩ := h
  obtain ⟨frame', e', houtput, hdecode', rfl⟩ := h'
  have hline : Hex.encode frame ++ "\n" = Hex.encode frame' ++ "\n" :=
    congrArg Output.stdout houtput
  have hframe := (Spells.digits frame).line
  rw [hline] at hframe
  rw [hframe.unique (Spells.digits frame').line, hdecode'] at hdecode
  rw [Except.ok.inj hdecode]

/-- Whoever a run signs as has the key that the text names. -/
theorem SignsAs.exists_key (h : SignsAs env.settings (run env arguments random) sender)
    (hparse : Command.parse env arguments = .ok (.sign text argument)) :
    ∃ key, Names text key ∧ Coordinate.ofSecretKey key = .ok sender := by
  have hstatus : (run env arguments random).status = 0 := by
    obtain ⟨frame, e, houtput, -⟩ := h
    rw [houtput]
  obtain ⟨key, sender', hkey, hsender, hsigns⟩ := exists_signsAs hparse hstatus
  rw [h.unique hsigns]
  exact ⟨key, hkey, hsender⟩

/-- Whom a secret key text signs as. The texts that are taken for a key have an even number of
digits from 48 to 64, and the key is that of the digits with zeros in front up to 64. A run
that succeeds signs as the sender of this key. So two texts that are accepted, in whatever
runs, sign as one sender exactly if their digits agree when filled up, in letters of either
case; and if they have the same number of digits, as those of 64 do, exactly if they agree but
for blanks around them and the case of letters. -/
theorem signer_of_digits (env env' : Environment) (arguments arguments' : List String)
    (random random' : Bytes) (text text' : String) (argument argument' : PayloadArgument) :
    (∀ key, Names text key ↔
      48 ≤ (Text.trim text).length ∧ (Text.trim text).length ≤ 64 ∧
        (Text.trim text).length % 2 = 0 ∧
        fullDigits text = (Hex.encode key.toBytes).toList) ∧
    (Command.parse env arguments = .ok (.sign text argument) →
      (run env arguments random).status = 0 →
      ∃ key sender, Names text key ∧ Coordinate.ofSecretKey key = .ok sender ∧
        SignsAs env.settings (run env arguments random) sender) ∧
    ∀ sender sender',
      Command.parse env arguments = .ok (.sign text argument) →
      Command.parse env' arguments' = .ok (.sign text' argument') →
      SignsAs env.settings (run env arguments random) sender →
      SignsAs env'.settings (run env' arguments' random') sender' →
      (sender = sender' ↔ fullDigits text = fullDigits text') ∧
      ((Text.trim text).length = (Text.trim text').length →
        (sender = sender' ↔ (Text.trim text).toLower = (Text.trim text').toLower)) := by
  refine ⟨fun key => names_iff, exists_signsAs,
    fun sender sender' hparse hparse' hsigns hsigns' => ?_⟩
  obtain ⟨key, hkey, hsender⟩ := hsigns.exists_key hparse
  obtain ⟨key', hkey', hsender'⟩ := hsigns'.exists_key hparse'
  have hsame : sender = sender' ↔ fullDigits text = fullDigits text' := by
    rw [← hkey.eq_iff hkey']
    constructor
    · rintro rfl
      exact SecretKey.eq_of_ofSecretKey hsender hsender'
    · rintro rfl
      rw [hsender] at hsender'
      exact Except.ok.inj hsender'
  refine ⟨hsame, fun hlength => ?_⟩
  rw [hsame, fullDigits_eq_iff hlength]

/-- A text of 48 digits. -/
def shortKey : String :=
  "000000000000000000000000000000000000000000000001"

theorem spells_shortKey : Spells shortKey (Bytes.bigEndian 24 1) := by
  have hdigits : shortKey = Hex.encode (Bytes.bigEndian 24 1) := by decide
  rw [hdigits]
  exact .digits _

theorem signsAs_of_names_one (hkey : Names text SecretKey.one)
    (hsender : Coordinate.ofSecretKey SecretKey.one = .ok sender) :
    SignsAs Settings.default
      (run (fun _ => none) ["sign", "--secret-key", text, "--payload", ""] []) sender := by
  obtain ⟨e, hsigned⟩ := Envelope.exists_signed_one
  have hcoordinate := Envelope.coordinate_of_signed hsigned
  rw [hsender] at hcoordinate
  cases hcoordinate
  have hsettings : Environment.settings (fun _ => none) = Settings.default := rfl
  rw [← hsettings] at hsigned ⊢
  have hdash : '-' ∉ text.toList := by
    obtain ⟨secret, hspells, -⟩ := hkey
    exact hspells.dash_not_mem
  exact signsAs_of_signed (parse_sign hdash rfl) rfl hkey hsigned

/-- The tool signs with a text of 48 digits. It is what is left of the 64 digits of another
key, whose sender is not the one that is signed as; and it signs as the same sender as a text
that has more digits. -/
theorem shortKey_signs :
    ∃ sender,
      SignsAs Settings.default
        (run (fun _ => none) ["sign", "--secret-key", shortKey, "--payload", ""] []) sender ∧
      (Text.trim shortKey).length = 48 ∧
      (∃ key other, Names (shortKey ++ "0000000000000001") key ∧
        Coordinate.ofSecretKey key = .ok other ∧ other ≠ sender) ∧
      SignsAs Settings.default
        (run (fun _ => none)
          ["sign", "--secret-key", "0000000000000000" ++ shortKey, "--payload", ""] []) sender ∧
      (Text.trim ("0000000000000000" ++ shortKey)).toLower ≠ (Text.trim shortKey).toLower := by
  obtain ⟨sender, -, hsender, -⟩ := Coordinate.exists_ofSecretKey SecretKey.one
  let key : SecretKey := ⟨0x10000000000000001, by decide, by decide⟩
  obtain ⟨other, -, hother, -⟩ := Coordinate.exists_ofSecretKey key
  have hdiffers : other ≠ sender := by
    rintro rfl
    have hscalar := congrArg SecretKey.scalar (SecretKey.eq_of_ofSecretKey hother hsender)
    exact absurd hscalar (by decide)
  have hshort : Names shortKey SecretKey.one :=
    ⟨_, spells_shortKey, SecretKey.ofBytes?_eq_some_iff.mpr (by decide)⟩
  have hlong : shortKey ++ "0000000000000001" = Hex.encode key.toBytes := by decide
  have hone : "0000000000000000" ++ shortKey = Hex.encode SecretKey.one.toBytes := by
    decide
  rw [hlong, hone]
  refine ⟨sender, signsAs_of_names_one hshort hsender, spells_shortKey.length_trim,
    ⟨key, other, names_toBytes key, hother, hdiffers⟩,
    signsAs_of_names_one (names_toBytes _) hsender, fun hsame => ?_⟩
  have hlength := congrArg String.length hsame
  rw [Text.length_toLower, Text.length_toLower, (Spells.digits _).length_trim,
    spells_shortKey.length_trim] at hlength
  exact absurd hlength (by decide)

end Tool

end ConsensusEnvelope
