import Custody.Authority.Script
import Custody.Bundle.Capture
import Custody.Digest.Keyed
import Custody.Failure.Recorder
import Custody.Main
import Custody.Plan.Run
import Custody.Proofs.Decimal
import Custody.Proofs.NumberText
import Custody.Proofs.ReadBack
import Custody.Proofs.Lookup
import Custody.Proofs.Canonical
import Custody.Proofs.Hex
import Custody.Proofs.Preimage
import Custody.Proofs.ChainBinding
import Custody.Proofs.ChainHistory
import Custody.Proofs.Records
import Custody.Proofs.Snapshots
import Custody.Proofs.WrittenBundle
import Custody.Proofs.BundleRules
import Custody.Proofs.BundleChain
import Custody.Proofs.ExportVerification
import Custody.Proofs.TamperEvidence
import Custody.Proofs.Acceptance
import Custody.Proofs.Exchanges
import Custody.Proofs.PlanRun
import Custody.Proofs.FailureRecord
import Custody.Proofs.CapturedParts
import Custody.Proofs.CapturedCalls
import Custody.Proofs.LostCalls
import Custody.Proofs.GuardedSteps
import Custody.Proofs.ReadMode
import Custody.Proofs.ImportedBundle
import Custody.Proofs.Filling
import Custody.Proofs.FilledBundle
import Custody.Proofs.RecordForms
import Custody.Proofs.Verdicts
import Custody.Proofs.WholeDoubles
import Custody.Proofs.Reformatting
import Custody.Proofs.ByteOrder
import Custody.Proofs.CompactText
import Custody.Proofs.BundleMaking
import Custody.Proofs.RecordedInTurn
import Custody.Proofs.WrittenRecords
import Custody.Proofs.PlanMaking
import Custody.Proofs.PlanOfCalls
import Custody.Proofs.DigestText
import Custody.Proofs.StoredBundles
import Custody.Proofs.StrictRecords
import Custody.Proofs.OutcomeDocuments
import Custody.Proofs.FailureDocuments
import Custody.Proofs.ChainedKeys
import Custody.Proofs.NumberValues
