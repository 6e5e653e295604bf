import CargoPds.Responsibility.History
import CargoPds.Responsibility.Handover
import CargoPds.Responsibility.Portable
import CargoPds.Responsibility.Binding
import CargoPds.Safety.Window
import CargoPds.Responsibility.Durable
import CargoPds.Safety.Rounds
import CargoPds.Evaluation.Aggregate
import CargoPds.Evaluation.Batch
import CargoPds.Evaluation.Snapshot
import CargoPds.Evaluation.Versions
import CargoPds.Evaluation.Projection
import CargoPds.Evidence.Object
import CargoPds.Evidence.Qualification
import CargoPds.Evidence.Repository
import CargoPds.Policy.Hash
import CargoPds.Pds.Decisions
import CargoPds.Pds.Outbox
import CargoPds.EvidenceBundle.Agreement
import CargoPds.Audit.History
import CargoPds.Audit.Readback
import CargoPds.Migrations.Apply
import CargoPds.Policy.Admission
import CargoPds.Policy.Signature
import CargoPds.Responsibility.KeyWindow
import CargoPds.RuleOperator.Scope
import CargoPds.Evaluation.Plan
import CargoPds.Evaluation.Provenance
import CargoPds.Delivery.Attempts
import CargoPds.Policy.TrustStore
import CargoPds.Pds.Ingestion
import CargoPds.Pds.Listing
import CargoPds.Evaluation.Undo
import CargoPds.Pds.Deadlines
import CargoPds.Pds.Retries
import CargoPds.RuleOperator.Sequence
import CargoPds.RuleOperator.Pointer
import CargoPds.Evidence.Duplicates
import CargoPds.Pds.Anchoring
import CargoPds.Evaluation.Lifecycle
import CargoPds.Evaluation.Faithful
import CargoPds.EvidenceBundle.Severity
import CargoPds.Evaluation.Invariant
import CargoPds.EvidenceBundle.Exact
import CargoPds.Delivery.RecordLocks
import CargoPds.Delivery.Timing
import CargoPds.Delivery.Relay
