import ConsensusEnvelope.Proofs.Delivery

/-!
# A batch is its envelopes, one by one

Verifying many envelopes is divided among workers: the list is cut into pieces, each piece
is verified by itself, and the verdicts are joined in the order of the pieces. As the
verdict on an envelope does not depend on the envelopes around it, no cut shows in the
result, and the results are the verdicts in the order of the list.

The counts and the conjunction are summaries of the verdicts. Joining lists adds the
counts, and rearranging a list leaves them, because both hold of counting; that the
number of refusals is a difference costs nothing, because what is counted is never more
than what there is.
-/

namespace ConsensusEnvelope

/-- The elements of a list at the given places, in the order of the places. -/
def arranged {α : Type} (order : List Nat) (as : List α) : List α :=
  order.filterMap fun i => as[i]?

section Arranged

variable {α β : Type}

theorem arranged_map (f : α → β) (order : List Nat) (as : List α) :
    arranged order (as.map f) = (arranged order as).map f := by
  rw [arranged, arranged, List.map_filterMap]
  simp only [List.getElem?_map]

theorem arranged_range (as : List α) : arranged (List.range as.length) as = as := by
  induction as with
  | nil => rfl
  | cons a rest ih =>
      rw [arranged, List.length_cons, List.range_succ_eq_map, List.filterMap_cons,
        List.filterMap_map]
      exact congrArg (a :: ·) ih

/-- Each place once: the list is rearranged. -/
theorem arranged_perm {order : List Nat} {as : List α}
    (h : order.Perm (List.range as.length)) : (arranged order as).Perm as := by
  have hperm : (arranged order as).Perm (arranged (List.range as.length) as) :=
    h.filterMap fun i => as[i]?
  rwa [arranged_range] at hperm

end Arranged

namespace Batch

variable {settings : Settings}

/-- The batch of two lists, one behind the other. -/
def join (first second : Batch) : Batch where
  results := first.results ++ second.results
  allValid := first.allValid && second.allValid
  validCount := first.validCount + second.validCount
  invalidCount := first.invalidCount + second.invalidCount

/-- Verification in pieces: each piece by itself, and the verdicts joined in their order. -/
def verifyPieces (settings : Settings) (pieces : List (List Envelope)) : Except Abort Batch :=
  (pieces.mapM (List.mapM (Envelope.verify settings))).map fun results =>
    ofResults results.flatten

theorem validCount_add_invalidCount (results : List Bool) :
    (ofResults results).validCount + (ofResults results).invalidCount = results.length :=
  Nat.add_sub_of_le List.count_le_length

theorem allValid_iff (results : List Bool) :
    (ofResults results).allValid = true ↔ ∀ valid ∈ results, valid = true := by
  have hle : results.count true ≤ results.length := List.count_le_length
  have hall : results.count true = results.length ↔ ∀ valid ∈ results, true = valid :=
    List.count_eq_length
  rw [ofResults, beq_iff_eq]
  constructor
  · intro h valid hmem
    exact (hall.mp (by omega) valid hmem).symm
  · intro h
    rw [hall.mpr fun valid hmem => (h valid hmem).symm, Nat.sub_self]

theorem ofResults_append (first second : List Bool) :
    ofResults (first ++ second) = (ofResults first).join (ofResults second) := by
  have hfirst : first.count true ≤ first.length := List.count_le_length
  have hsecond : second.count true ≤ second.length := List.count_le_length
  have hinvalid : first.length + second.length - (first.count true + second.count true) =
      first.length - first.count true + (second.length - second.count true) := by
    omega
  simp only [ofResults, join, List.count_append, List.length_append, hinvalid,
    Batch.mk.injEq, true_and, and_true]
  rw [Bool.eq_iff_iff, Bool.and_eq_true, beq_iff_eq, beq_iff_eq, beq_iff_eq]
  exact Nat.add_eq_zero_iff

theorem ofResults_perm {results results' : List Bool} (h : results'.Perm results) :
    ofResults results' = { ofResults results with results := results' } := by
  simp only [ofResults, h.count_eq, h.length_eq]

theorem mapM_verify (settings : Settings) (envelopes : List Envelope) :
    envelopes.mapM (Envelope.verify settings) =
      .ok (envelopes.map (Envelope.verdict settings)) := by
  have hverdict : Envelope.verify settings = fun e => .ok (e.verdict settings) :=
    funext fun e => e.verify_eq_verdict settings
  rw [hverdict]
  exact List.mapM_pure

theorem verify_eq (settings : Settings) (envelopes : List Envelope) :
    verify settings envelopes =
      .ok (ofResults (envelopes.map (Envelope.verdict settings))) := by
  rw [verify, mapM_verify]
  rfl

/-- No cut shows in the result. -/
theorem verifyPieces_eq (settings : Settings) (pieces : List (List Envelope)) :
    verifyPieces settings pieces = verify settings pieces.flatten := by
  have hpiece : List.mapM (Envelope.verify settings) =
      fun piece => .ok (piece.map (Envelope.verdict settings)) :=
    funext (mapM_verify settings)
  have hpieces : pieces.mapM (List.mapM (Envelope.verify settings)) =
      .ok (pieces.map (List.map (Envelope.verdict settings))) := by
    rw [hpiece]
    exact List.mapM_pure
  rw [verifyPieces, hpieces, verify_eq, List.map_flatten]
  rfl

end Batch

namespace Endpoint

variable {α : Type}

theorem verifyBatch_eq (endpoint : Endpoint α) (envelopes : List Envelope) :
    endpoint.verifyBatch envelopes =
      ⟨[.batchVerified envelopes.length
          (Batch.ofResults (envelopes.map (Envelope.verdict endpoint.settings))).invalidCount],
        .ok (Batch.ofResults (envelopes.map (Envelope.verdict endpoint.settings)))⟩ := by
  rw [verifyBatch, Batch.verify_eq]
  rfl

theorem outcome_verify_eq (endpoint : Endpoint α) (e : Envelope) :
    (endpoint.verify e).outcome = .ok (e.verdict endpoint.settings) :=
  outcome_verify (e.verify_eq_verdict endpoint.settings)

/-- Verifying a batch is verifying its envelopes one by one. It always comes to a result,
which has a verdict for each envelope at its place, however the list is cut into pieces
that are verified apart. The two counts make up the list, the first is the number of
envelopes that verify, and the conjunction holds exactly if all of them do. Of two lists,
one behind the other, the verdicts are joined and the counts added, and all are valid if
all of both are. Rearranging the envelopes rearranges the verdicts and nothing else. -/
theorem batch_one_by_one (endpoint : Endpoint α) (envelopes : List Envelope) :
    (∀ e : Envelope, (endpoint.verify e).outcome = .ok (e.verdict endpoint.settings)) ∧
    ∃ batch, endpoint.verifyBatch envelopes =
        ⟨[.batchVerified envelopes.length batch.invalidCount], .ok batch⟩ ∧
      batch.results.length = envelopes.length ∧
      (∀ (i : Nat) (e : Envelope), envelopes[i]? = some e →
        batch.results[i]? = some (e.verdict endpoint.settings)) ∧
      (∀ pieces : List (List Envelope), pieces.flatten = envelopes →
        Batch.verifyPieces endpoint.settings pieces = .ok batch) ∧
      batch.validCount + batch.invalidCount = envelopes.length ∧
      batch.validCount = envelopes.countP (Envelope.verdict endpoint.settings) ∧
      (batch.allValid = true ↔ ∀ e ∈ envelopes, e.verdict endpoint.settings = true) ∧
      (∀ others : List Envelope, ∃ batch',
        (endpoint.verifyBatch others).outcome = .ok batch' ∧
          (endpoint.verifyBatch (envelopes ++ others)).outcome = .ok (batch.join batch')) ∧
      ∀ order : List Nat, order.Perm (List.range envelopes.length) →
        (arranged order envelopes).Perm envelopes ∧
        (endpoint.verifyBatch (arranged order envelopes)).outcome =
          .ok { batch with results := arranged order batch.results } := by
  refine ⟨endpoint.outcome_verify_eq, _, endpoint.verifyBatch_eq envelopes,
    List.length_map _, ?_, ?_, ?_, ?_, ?_, ?_, ?_⟩
  · intro i e hi
    rw [Batch.ofResults, List.getElem?_map, hi]
    rfl
  · intro pieces hpieces
    rw [Batch.verifyPieces_eq, hpieces, Batch.verify_eq]
  · rw [Batch.validCount_add_invalidCount, List.length_map]
  · rw [Batch.ofResults, List.count_eq_countP, List.countP_map]
    exact List.countP_congr fun e _ => by simp
  · rw [Batch.allValid_iff, List.forall_mem_map]
  · intro others
    refine ⟨_, congrArg Traced.outcome (endpoint.verifyBatch_eq others), ?_⟩
    rw [verifyBatch_eq, List.map_append, Batch.ofResults_append]
  · intro order horder
    have hperm := arranged_perm horder
    refine ⟨hperm, ?_⟩
    rw [verifyBatch_eq, Batch.ofResults_perm (hperm.map _), Batch.ofResults, arranged_map]

end Endpoint

end ConsensusEnvelope
