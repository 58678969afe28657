import ConsensusEnvelope.Json.Document
import ConsensusEnvelope.Main
import ConsensusEnvelope.Message.Decision
import ConsensusEnvelope.Message.Report
import ConsensusEnvelope.Message.Round
import ConsensusEnvelope.Message.Vote
import ConsensusEnvelope.Proofs.Allowance
import ConsensusEnvelope.Proofs.Attempts
import ConsensusEnvelope.Proofs.Authenticity
import ConsensusEnvelope.Proofs.Batches
import ConsensusEnvelope.Proofs.Canonical
import ConsensusEnvelope.Proofs.Comparison
import ConsensusEnvelope.Proofs.Consultation
import ConsensusEnvelope.Proofs.Delivery
import ConsensusEnvelope.Proofs.Identities
import ConsensusEnvelope.Proofs.Json.Documents
import ConsensusEnvelope.Proofs.Json.Elements
import ConsensusEnvelope.Proofs.Nesting
import ConsensusEnvelope.Proofs.Overrides
import ConsensusEnvelope.Proofs.Preimage
import ConsensusEnvelope.Proofs.Reading
import ConsensusEnvelope.Proofs.Scalars
import ConsensusEnvelope.Proofs.Secp256k1.Signing
import ConsensusEnvelope.Proofs.Senders
import ConsensusEnvelope.Proofs.Separation
import ConsensusEnvelope.Proofs.SignatureForms
import ConsensusEnvelope.Proofs.Tool.Arguments
import ConsensusEnvelope.Proofs.Tool.Display
import ConsensusEnvelope.Proofs.Tool.RoundTrip
import ConsensusEnvelope.Proofs.Tool.SecretKeys
import ConsensusEnvelope.Proofs.Untrusted
import ConsensusEnvelope.Proofs.Utf8
import ConsensusEnvelope.Proofs.Verification
