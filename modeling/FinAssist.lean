import FinAssist.RelyGuarantee
import FinAssist.Sha256
import FinAssist.Identifiers
import FinAssist.ApplicationStatus
import FinAssist.Application
import FinAssist.AuditHash
import FinAssist.Evidence
import FinAssist.Database
import FinAssist.UnitOfWork
import FinAssist.Commands
import FinAssist.Activities
import FinAssist.CaseFile
import FinAssist.Casework
import FinAssist.Transactions
import FinAssist.UnitOfWorkSpecs
import FinAssist.CommandSpecs
import FinAssist.EvidenceSpecs
import FinAssist.ActivitySpecs
import FinAssist.CaseIntegrity
import FinAssist.DurableFlow
import FinAssist.ApplicationWorkflow
import FinAssist.LatestWins
import FinAssist.Outbox
import FinAssist.Timestamps
import FinAssist.ProjectionConsumer
import FinAssist.ConsumerOffsets
import FinAssist.OutboxRelay
import FinAssist.Isolated
import FinAssist.PrefixFree
import FinAssist.HashChain
import FinAssist.CanonicalJson
import FinAssist.AuditTrail
import FinAssist.AuditForks
import FinAssist.FactOrder
import FinAssist.HandlerRuns
import FinAssist.Summary
import FinAssist.ActivityRetries
import FinAssist.ExtractionRetries
import FinAssist.FreshRuns
import FinAssist.CaseStages
import FinAssist.WorkflowSteps
import FinAssist.WorkflowRuns
import FinAssist.ReviewDecisions
import FinAssist.WorkflowResults
import FinAssist.AppliedDecisions
import FinAssist.TimelyDecisions
import FinAssist.ReviewCycles
import FinAssist.Doubles
import FinAssist.Backtracking
import FinAssist.DocumentExtractor
import FinAssist.BlankFacts
import FinAssist.SyntheticDocuments
import FinAssist.DeclaredIncome
import FinAssist.Adapters
import FinAssist.UploadApi
import FinAssist.DocumentProcessing
import FinAssist.EventRecording
import FinAssist.SaveConflicts
import FinAssist.ComposedKeys
import FinAssist.LogRedaction
import FinAssist.PdfBuilder
import FinAssist.RequestLimits
import FinAssist.Decimals
import FinAssist.MoneyAmounts
import FinAssist.TransactionHistories
import FinAssist.AggregateStorage
import FinAssist.CommittedViews
import FinAssist.IntakeAgreement
import FinAssist.CreateApi
import FinAssist.TenantIsolation
