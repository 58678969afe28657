import ConsensusEnvelope.Proofs.Delivery

/-!
# Which payloads the codec is asked about

A codec belongs to the consensus layer and may do anything with a payload, so it must not
be given one that nobody vouches for. An endpoint verifies first, and verification knows
nothing of codecs: whatever it refuses, for the length of the payload, the key, the
scalars or the equation, is refused in the same words under every codec.

That a codec is not asked shows in two ways. Two codecs that differ only on payloads of
envelopes that do not verify cannot be told apart by reading. And reading takes any decoder
in the place of the codec, also one that keeps a record of what it is asked. That decoder has
afterwards been asked about the payloads of the verified envelopes, in their order and once
for each. The invariant of the run is the record itself: each envelope adds its payload to it
or leaves it.
-/

namespace ConsensusEnvelope

theorem Except.mapError_inj {ε δ α : Type} {x y : Except ε α} {f : ε → δ}
    (hf : Function.Injective f) (h : x.mapError f = y.mapError f) : x = y := by
  cases x with
  | ok a =>
      cases y with
      | ok a' => cases h; rfl
      | error e' => cases h
  | error e =>
      cases y with
      | ok a' => cases h
      | error e' =>
          have he : f e = f e' := Except.error.inj h
          rw [hf he]

/-- The decoder of a codec, which also keeps a record of the payloads that it is asked
about. -/
def Codec.recorded {α : Type} (codec : Codec α) (payload : Bytes) :
    StateM (List Bytes) (Except CodecError α) := do
  modify (· ++ [payload])
  return codec.decode payload

namespace Endpoint

variable {α σ : Type} {endpoint : Endpoint α} {settings : Settings} {e : Envelope}

/-! ## Two codecs -/

/-- Reading tells two codecs apart only by an envelope that verifies, and then by each
whose payload they read differently. -/
theorem read_eq_iff (first second : Codec α) :
    Endpoint.read ⟨settings, first⟩ e = Endpoint.read ⟨settings, second⟩ e ↔
      (e.verify settings = .ok true → first.decode e.payload = second.decode e.payload) := by
  obtain ⟨valid, hvalid⟩ := Envelope.exists_verify_eq_ok settings e
  cases valid with
  | false =>
      have hfirst : Endpoint.read ⟨settings, first⟩ e = _ := read_of_invalid hvalid
      have hsecond : Endpoint.read ⟨settings, second⟩ e = _ := read_of_invalid hvalid
      rw [hfirst, hsecond, hvalid]
      exact iff_of_true rfl nofun
  | true =>
      have hfirst : Endpoint.read ⟨settings, first⟩ e = _ := read_of_valid hvalid
      have hsecond : Endpoint.read ⟨settings, second⟩ e = _ := read_of_valid hvalid
      rw [hfirst, hsecond]
      constructor
      · intro h _
        have houtcome := congrArg Traced.outcome h
        exact Except.mapError_inj (fun _ _ hcause => Error.payload.inj hcause) houtcome
      · intro h
        rw [h hvalid]

/-! ## A decoder with a memory -/

/-- With a decoder that has no effects, reading has none, whatever effects there might be. -/
theorem readWith_pure {m : Type → Type} [Monad m] [LawfulMonad m] (endpoint : Endpoint α)
    (e : Envelope) :
    endpoint.readWith (fun payload => pure (endpoint.codec.decode payload)) e =
      (pure (endpoint.read e) : m (Traced Error α)) := by
  obtain ⟨valid, hvalid⟩ := Envelope.exists_verify_eq_ok endpoint.settings e
  cases valid with
  | false => rw [readWith_of_invalid _ hvalid, read_of_invalid hvalid]
  | true => rw [readWith_of_valid _ hvalid, pure_bind, read_of_valid hvalid]

/-- What one envelope adds to the record. -/
theorem run_readWith_recorded (endpoint : Endpoint α) (e : Envelope) (record : List Bytes) :
    (endpoint.readWith endpoint.codec.recorded e).run record =
      (endpoint.read e,
        if e.verdict endpoint.settings then record ++ [e.payload] else record) := by
  have hverify := e.verify_eq_verdict endpoint.settings
  cases hverdict : e.verdict endpoint.settings with
  | false =>
      rw [hverdict] at hverify
      rw [readWith_of_invalid _ hverify, read_of_invalid hverify]
      rfl
  | true =>
      rw [hverdict] at hverify
      rw [readWith_of_valid _ hverify, read_of_valid hverify]
      rfl

theorem run_mapM_cons {β : Type} (step : β → StateM σ α) (b : β) (rest : List β) (state : σ) :
    ((b :: rest).mapM step).run state =
      (((step b).run state).1 :: ((rest.mapM step).run ((step b).run state).2).1,
        ((rest.mapM step).run ((step b).run state).2).2) := by
  rw [List.mapM_cons]
  rfl

/-- The record of a run lists the payloads of the verified envelopes. -/
theorem run_mapM_recorded (endpoint : Endpoint α) (envelopes : List Envelope)
    (record : List Bytes) :
    (envelopes.mapM (endpoint.readWith endpoint.codec.recorded)).run record =
      (envelopes.map endpoint.read,
        record ++
          (envelopes.filter (Envelope.verdict endpoint.settings)).map fun e => e.payload) := by
  induction envelopes generalizing record with
  | nil =>
      rw [List.filter_nil, List.map_nil, List.map_nil, List.append_nil]
      rfl
  | cons e rest ih =>
      rw [run_mapM_cons, run_readWith_recorded]
      dsimp only
      rw [ih, List.filter_cons]
      cases e.verdict endpoint.settings with
      | false => rfl
      | true =>
          rw [if_pos rfl, if_pos rfl, List.map_cons, List.append_assoc, List.singleton_append]
          rfl

/-- The payload of an envelope that does not verify has no part in reading. Every envelope
verifies or does not. If it does not, the answer is one and the same under every codec, and
if it does, it is the answer of the codec about the payload, with an error reworded. So two
codecs make the same of all envelopes exactly if they agree about the payloads of those that
verify. In every run of readings the codec is asked about these payloads and no others, in
the order of the run. -/
theorem unverified_unread (settings : Settings) :
    (∀ e : Envelope, e.verify settings = .ok (e.verdict settings)) ∧
    (∀ e : Envelope, e.verify settings = .ok false → ∀ (α : Type) (codec : Codec α),
      Endpoint.read ⟨settings, codec⟩ e =
        ⟨[.verificationFailed e.version e.coordinate e.payload.length],
          .error .verificationFailed⟩) ∧
    (∀ e : Envelope, e.verify settings = .ok true → ∀ (α : Type) (codec : Codec α),
      Endpoint.read ⟨settings, codec⟩ e =
        ⟨[], (codec.decode e.payload).mapError .payload⟩) ∧
    (∀ (α : Type) (first second : Codec α),
      Endpoint.read ⟨settings, first⟩ = Endpoint.read ⟨settings, second⟩ ↔
        ∀ e : Envelope, e.verify settings = .ok true →
          first.decode e.payload = second.decode e.payload) ∧
    ∀ (α : Type) (codec : Codec α),
      (∀ (σ : Type) (state : σ) (e : Envelope),
        (Endpoint.readWith ⟨settings, codec⟩
          (fun payload => (pure (codec.decode payload) : StateM σ _)) e).run state =
            (Endpoint.read ⟨settings, codec⟩ e, state)) ∧
      ∀ (envelopes : List Envelope) (record : List Bytes),
        (envelopes.mapM (Endpoint.readWith ⟨settings, codec⟩ codec.recorded)).run record =
          (envelopes.map (Endpoint.read ⟨settings, codec⟩),
            record ++ (envelopes.filter (Envelope.verdict settings)).map fun e => e.payload) := by
  refine ⟨fun e => e.verify_eq_verdict settings, ?_, ?_, ?_, ?_⟩
  · intro e h α codec
    exact read_of_invalid h
  · intro e h α codec
    exact read_of_valid h
  · intro α first second
    rw [funext_iff]
    exact forall_congr' fun e => read_eq_iff first second
  · intro α codec
    refine ⟨?_, ?_⟩
    · intro σ state e
      have hread := readWith_pure (m := StateM σ) ⟨settings, codec⟩ e
      rw [hread]
      rfl
    · intro envelopes record
      exact run_mapM_recorded ⟨settings, codec⟩ envelopes record

end Endpoint

end ConsensusEnvelope
