import ConsensusEnvelope.Proofs.Delivery
import ConsensusEnvelope.Proofs.Overrides
import ConsensusEnvelope.Proofs.Tool.Arguments

/-!
# What the tool signs, the tool verifies

A run that signs and a run that verifies share nothing but a line of text and the settings.
The line carries the frame of the envelope whatever happens to its letters and to the blanks
around it. The frame is within the frame limit of the settings that it was signed under,
because the allowance of a frame covers all fields but the payload; and the payload is within
the payload limit, because signing checks it. So the second run gets to the signature, and
that holds.

Signing itself can fail at four places only: the payload or the secret key is not spelled,
the bytes of the secret key are no scalar, or the payload is too long.
-/

namespace ConsensusEnvelope.Tool

open Secp256k1

variable {settings : Settings} {env : Environment} {arguments : List String} {text : String}
  {argument : PayloadArgument} {random : Bytes}

theorem endpoint_sign_eq_ok_iff {payload : Bytes} {key : SecretKey} {e : Envelope} :
    ((endpoint settings).sign payload key random).outcome = .ok e ↔
      Envelope.signed settings payload key random = .ok e :=
  Endpoint.sign_eq_ok_iff rfl

/-- Signing prints the frame of the envelope that the named key signs for the payload. -/
theorem sign_eq_ok_iff {line : String} :
    sign settings text argument random = .ok line ↔
      ∃ payload key e, argument.Denotes payload ∧ Names text key ∧
        Envelope.signed settings payload key random = .ok e ∧
        line = Hex.encode (Frame.encode e) ++ "\n" := by
  simp only [sign, Except.bind_eq_ok_iff, Except.mapError_eq_ok_iff,
    PayloadArgument.bytes_eq_ok_iff, readSecretKey_eq_ok_iff, endpoint_sign_eq_ok_iff]
  refine ⟨fun h => ?_, fun h => ?_⟩
  · obtain ⟨payload, hpayload, key, hkey, e, hsigned, hline⟩ := h
    exact ⟨payload, key, e, hpayload, hkey, hsigned, (Except.ok.inj hline).symm⟩
  · obtain ⟨payload, key, e, hpayload, hkey, hsigned, rfl⟩ := h
    exact ⟨payload, hpayload, key, hkey, e, hsigned, rfl⟩

theorem endpoint_verify_eq_ok_iff {e : Envelope} {valid : Bool} :
    ((endpoint settings).verify e).outcome = .ok valid ↔ e.verify settings = .ok valid := by
  obtain ⟨accepted, h⟩ := Envelope.exists_verify_eq_ok settings e
  have houtcome : ((endpoint settings).verify e).outcome = .ok accepted :=
    Endpoint.outcome_verify h
  rw [houtcome, h]

/-- Verification looks at the envelope in the frame that is spelled. -/
theorem verify_eq_ok_iff {e : Envelope} {valid : Bool} :
    verify settings text = .ok (e, valid) ↔
      ∃ frame, Spells text frame ∧ Frame.decode settings frame = .ok e ∧
        e.verify settings = .ok valid := by
  simp only [verify, Except.bind_eq_ok_iff, Except.mapError_eq_ok_iff, hexArgument_eq_ok_iff,
    endpoint_verify_eq_ok_iff]
  refine ⟨fun h => ?_, fun h => ?_⟩
  · obtain ⟨frame, hframe, e', hdecode, valid', hverify, heq⟩ := h
    cases heq
    exact ⟨frame, hframe, hdecode, hverify⟩
  · obtain ⟨frame, hframe, hdecode, hverify⟩ := h
    exact ⟨frame, hframe, e, hdecode, valid, hverify, rfl⟩

/-! ## Runs -/

theorem status_run_sign_iff (h : Command.parse env arguments = .ok (.sign text argument)) :
    (run env arguments random).status = 0 ↔
      ∃ line, sign env.settings text argument random = .ok line := by
  rw [run, h]
  dsimp only
  rw [execute]
  cases sign env.settings text argument random with
  | ok line => exact iff_of_true rfl ⟨line, rfl⟩
  | error failure => exact iff_of_false (show (1 : UInt8) ≠ 0 by decide) nofun

theorem run_sign {line : String} (h : Command.parse env arguments = .ok (.sign text argument))
    (hsign : sign env.settings text argument random = .ok line) :
    run env arguments random = { status := 0, stdout := line, stderr := "" } := by
  rw [run, h]
  dsimp only
  rw [execute, hsign]
  rfl

theorem run_verify {e : Envelope} {valid : Bool}
    (h : Command.parse env arguments = .ok (.verify text))
    (hverify : verify env.settings text = .ok (e, valid)) :
    run env arguments random =
      { status := if valid then 0 else 1, stdout := display e valid, stderr := "" } := by
  rw [run, h]
  dsimp only
  rw [execute, hverify]
  rfl

/-- What verification leaves behind for an envelope of the version of the settings that is
accepted. -/
def accepted (settings : Settings) (sender : Coordinate) (payload : Bytes) : Output where
  status := 0
  stdout :=
    "version:    " ++ toString settings.version.toNat ++
      "\nsender:     " ++ sender.hex ++
      "\npayload:    " ++ Utf8.lossy payload ++
      "\nsignature:  valid\n"
  stderr := ""

theorem display_signed {payload : Bytes} {key : SecretKey} {e : Envelope}
    (h : Envelope.signed settings payload key random = .ok e) :
    display e true = (accepted settings e.coordinate payload).stdout := by
  have htail : "\nsignature:  " ++ ("valid" ++ "\n") = "\nsignature:  valid\n" := by simp
  unfold display accepted
  rw [if_pos rfl, String.append_assoc, String.append_assoc, htail, Envelope.version_of_signed h,
    Envelope.payload_of_signed h]

/-- The frame of an envelope that was signed is accepted under the same settings, whatever text
spells it. -/
theorem verify_of_signed {payload : Bytes} {key : SecretKey} {e : Envelope}
    (h : Envelope.signed settings payload key random = .ok e)
    (htext : Spells text (Frame.encode e)) : verify settings text = .ok (e, true) := by
  have hsize := (Envelope.signed_eq_ok_iff.mp h).1
  have hframe := Envelope.length_encode_of_signed h
  rw [verify_eq_ok_iff]
  exact ⟨_, htext, Frame.decode_encode_iff.mpr (by omega),
    (Envelope.verify_of_signed h rfl).mpr hsize⟩

/-- Signing and verifying from the command line. Signing succeeds exactly if the payload
argument and the secret key argument stand for something and the payload is within the limit.
It then prints the digits of a frame. Any text that spells this frame, such as the printed line,
the line in capitals or the line between blanks, is accepted under the same settings: the
tool shows the version of the settings, the coordinate of the secret key, the payload, which
is a text as it stands, and the verdict. -/
theorem round_trip (random : Bytes)
    (hparse : Command.parse env arguments = .ok (.sign text argument)) :
    ((∀ payload key, argument.Denotes payload → Names text key →
        key.Answers env.settings random payload) →
      ((run env arguments random).status = 0 ↔
        ∃ payload key, argument.Denotes payload ∧ Names text key ∧
          payload.length ≤ env.settings.payloadLimit.toNat)) ∧
    ((run env arguments random).status = 0 →
      ∃ payload key sender frame, argument.Denotes payload ∧ Names text key ∧
        Coordinate.ofSecretKey key = .ok sender ∧
        run env arguments random =
          { status := 0, stdout := Hex.encode frame ++ "\n", stderr := "" } ∧
        Spells (Hex.encode frame ++ "\n") frame ∧
        Spells (Hex.encode frame ++ "\n").toUpper frame ∧
        (∀ before spelled after, Spells spelled frame → Text.Blank before → Text.Blank after →
          Spells (before ++ (spelled ++ after)) frame) ∧
        (∀ content, payload = Utf8.encode content → Utf8.lossy payload = content) ∧
        ∀ env' spelled, env'.settings = env.settings → Spells spelled frame →
          Command.parse env' ["verify", spelled] = .ok (.verify spelled) ∧
          ∀ arguments' random', Command.parse env' arguments' = .ok (.verify spelled) →
            run env' arguments' random' = accepted env.settings sender payload) := by
  refine ⟨fun answers => ?_, fun hstatus => ?_⟩
  · rw [status_run_sign_iff hparse]
    refine ⟨fun h => ?_, fun h => ?_⟩
    · obtain ⟨line, hline⟩ := h
      obtain ⟨payload, key, e, hpayload, hkey, hsigned, -⟩ := sign_eq_ok_iff.mp hline
      exact ⟨payload, key, hpayload, hkey, (Envelope.signed_eq_ok_iff.mp hsigned).1⟩
    · obtain ⟨payload, key, hpayload, hkey, hsize⟩ := h
      -- Nothing is left that could fail but the size check and the primitive.
      have hsigns : (∃ e, ((endpoint env.settings).sign payload key random).outcome = .ok e) ↔ _ :=
        Endpoint.sign_isOk_iff rfl (answers payload key hpayload hkey)
      obtain ⟨e, he⟩ := hsigns.mpr hsize
      exact ⟨_, sign_eq_ok_iff.mpr
        ⟨payload, key, e, hpayload, hkey, endpoint_sign_eq_ok_iff.mp he, rfl⟩⟩
  · obtain ⟨line, hline⟩ := (status_run_sign_iff hparse).mp hstatus
    obtain ⟨payload, key, e, hpayload, hkey, hsigned, rfl⟩ := sign_eq_ok_iff.mp hline
    have hspells := (Spells.digits (Frame.encode e)).line
    refine ⟨payload, key, e.coordinate, Frame.encode e, hpayload, hkey,
      Envelope.coordinate_of_signed hsigned, run_sign hparse hline, hspells, hspells.toUpper,
      fun before spelled after => Spells.between, fun content hcontent => ?_,
      fun env' spelled hsettings hspelled => ⟨?_, fun arguments' random' hparse' => ?_⟩⟩
    · rw [hcontent, Utf8.lossy_encode]
    · exact parse_verify hspelled.dash_not_mem
    · have hverify := verify_of_signed hsigned hspelled
      rw [← hsettings] at hverify
      rw [run_verify hparse' hverify, display_signed hsigned]
      rfl

/-- An environment in which all four variables are set. -/
def trialEnvironment : Environment
  | .domain => some (Utf8.encode "==TEST==")
  | .version => some (Utf8.encode "2")
  | .maxPayload => some (Utf8.encode "64")
  | .secretKey => some (Utf8.encode (Hex.encode SecretKey.two.toBytes))

theorem settings_trialEnvironment : trialEnvironment.settings = Settings.trial := by
  have hdomain : trialEnvironment.text? .domain = some "==TEST==" :=
    Environment.text?_eq_some_iff.mpr rfl
  have hversion : trialEnvironment.text? .version = some "2" :=
    Environment.text?_eq_some_iff.mpr rfl
  have hmaxPayload : trialEnvironment.text? .maxPayload = some "64" :=
    Environment.text?_eq_some_iff.mpr rfl
  rw [Environment.settings, Environment.number?, Environment.number?, hdomain, hversion,
    hmaxPayload]
  decide

/-- In this environment the payload of a vote is signed with the key that the environment
names, and verified from a line in capitals where it names no key. -/
theorem round_trip_vote : ∃ sender frame,
    Coordinate.ofSecretKey SecretKey.two = .ok sender ∧
    run trialEnvironment ["sign", "--payload-hex", Hex.encode Vote.trialPayload] [0x5a] =
      { status := 0, stdout := Hex.encode frame ++ "\n", stderr := "" } ∧
    run (fun v => if v = .secretKey then none else trialEnvironment v)
        ["verify", (Hex.encode frame ++ "\n").toUpper] [] =
      accepted Settings.trial sender Vote.trialPayload := by
  have htext : trialEnvironment.text? .secretKey = some (Hex.encode SecretKey.two.toBytes) :=
    Environment.text?_eq_some_iff.mpr rfl
  have hdigits := Spells.digits Vote.trialPayload
  have hparse := parse_sign_hex htext hdigits.dash_not_mem
  have hkeys := names_toBytes SecretKey.two
  have answers : ∀ payload key,
      PayloadArgument.Denotes (.hex (Hex.encode Vote.trialPayload)) payload →
      Names (Hex.encode SecretKey.two.toBytes) key →
        key.Answers trialEnvironment.settings [0x5a] payload := by
    intro payload key hpayload hkey
    obtain ⟨e, h⟩ := Envelope.exists_signed_vote
    cases hkey.unique hkeys
    cases hdigits.unique hpayload
    rw [settings_trialEnvironment]
    exact SecretKey.answers_of_signed h
  obtain ⟨hiff, hround⟩ := round_trip [0x5a] hparse
  have hsize : Vote.trialPayload.length ≤ trialEnvironment.settings.payloadLimit.toNat := by
    rw [settings_trialEnvironment]
    decide
  have hstatus := (hiff answers).mpr ⟨Vote.trialPayload, SecretKey.two, hdigits, hkeys, hsize⟩
  obtain ⟨payload, key, sender, frame, hpayload, hkey, hsender, hsigned, -, hcapitals, -, -,
    hverified⟩ := hround hstatus
  cases hkey.unique hkeys
  cases hdigits.unique hpayload
  rw [settings_trialEnvironment] at hverified
  have hsettings : Environment.settings
      (fun v => if v = .secretKey then none else trialEnvironment v) = Settings.trial :=
    settings_trialEnvironment
  obtain ⟨hparse', hrun⟩ := hverified _ _ hsettings hcapitals
  exact ⟨sender, frame, hsender, hsigned, hrun _ [] hparse'⟩

end ConsensusEnvelope.Tool
