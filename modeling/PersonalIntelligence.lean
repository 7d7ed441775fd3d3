import PersonalIntelligence.Library.Resumption
import PersonalIntelligence.Library.Protocol
import PersonalIntelligence.Library.PyText
import PersonalIntelligence.Library.Regex
import PersonalIntelligence.Contracts.Events
import PersonalIntelligence.Library.Rounding
import PersonalIntelligence.Library.Segmentation
import PersonalIntelligence.Orchestrator.Analysis
import PersonalIntelligence.Orchestrator.AnalysisRange
import PersonalIntelligence.Orchestrator.Graph
import PersonalIntelligence.Orchestrator.Consumer
import PersonalIntelligence.Orchestrator.Backfill
import PersonalIntelligence.Orchestrator.ConsumerRuns
import PersonalIntelligence.Orchestrator.WindowPartition
import PersonalIntelligence.Orchestrator.FlushFailures
import PersonalIntelligence.Orchestrator.Redelivery
import PersonalIntelligence.Ingestor.Redelivery
import PersonalIntelligence.Maintenance.Jobs
import PersonalIntelligence.Maintenance.Retention
import PersonalIntelligence.Memory.ArtifactKeys
import PersonalIntelligence.Ingestor.ObjectKeys
import PersonalIntelligence.Orchestrator.WindowExpiry
import PersonalIntelligence.Orchestrator.WindowProtocol
import PersonalIntelligence.Orchestrator.Interleaving
import PersonalIntelligence.Library.Table
import PersonalIntelligence.Memory.Schema
import PersonalIntelligence.Memory.Statements
import PersonalIntelligence.Memory.Stores
import PersonalIntelligence.Memory.Projector
import PersonalIntelligence.Memory.ProjectorRuns
import PersonalIntelligence.Memory.Acknowledge
import PersonalIntelligence.Memory.Erase
import PersonalIntelligence.Memory.EraseRuns
import PersonalIntelligence.Memory.ErasedRows
import PersonalIntelligence.Memory.ErasedArtifacts
import PersonalIntelligence.Library.Lockstep
import PersonalIntelligence.Memory.EraseAudit
import PersonalIntelligence.Orchestrator.Grounding
import PersonalIntelligence.Memory.Projection
import PersonalIntelligence.Memory.ProjectedTables
import PersonalIntelligence.Memory.Ledger
import PersonalIntelligence.Memory.FiledInteractions
import PersonalIntelligence.Memory.SyncedTasks
import PersonalIntelligence.Memory.ProjectedGraph
import PersonalIntelligence.Library.Runs
import PersonalIntelligence.Memory.EdgeWeights
import PersonalIntelligence.Memory.Accumulated
import PersonalIntelligence.Memory.ProjectionOrder
import PersonalIntelligence.Memory.Reprocess
import PersonalIntelligence.Memory.Indexer
import PersonalIntelligence.Library.Pool
import PersonalIntelligence.Memory.Deployment
import PersonalIntelligence.Memory.DeploymentRuns
import PersonalIntelligence.Memory.ErasedPoints
import PersonalIntelligence.Library.Calendar
import PersonalIntelligence.Library.Formatting
import PersonalIntelligence.Storage.S3Client
import PersonalIntelligence.Tasks.Rules
import PersonalIntelligence.Tasks.Statements
import PersonalIntelligence.Tasks.Extractor
import PersonalIntelligence.Tasks.Writers
import PersonalIntelligence.Tasks.TaskTimes
import PersonalIntelligence.Tasks.FoundSides
import PersonalIntelligence.Tasks.TaskSides
import PersonalIntelligence.Library.Outbox
import PersonalIntelligence.Tasks.Lifecycle
import PersonalIntelligence.Tasks.LifecycleRuns
import PersonalIntelligence.Memory.Ownership
import PersonalIntelligence.Library.Slug
import PersonalIntelligence.Memory.EmbeddingModels
import PersonalIntelligence.Library.Gaps
import PersonalIntelligence.Orchestrator.Silences
import PersonalIntelligence.Library.Triple
import PersonalIntelligence.Summarizer.Consumer
import PersonalIntelligence.Summarizer.Flush
import PersonalIntelligence.Summarizer.FlushRuns
import PersonalIntelligence.Summarizer.EditedMessages
import PersonalIntelligence.Orchestrator.ContactEvidence
import PersonalIntelligence.Orchestrator.TranslationFailures
import PersonalIntelligence.Memory.LastInteraction
import PersonalIntelligence.Library.FirstMatch
import PersonalIntelligence.Llm.Summary
import PersonalIntelligence.Library.Spacing
import PersonalIntelligence.Llm.Fences
import PersonalIntelligence.Llm.SummaryNormal
import PersonalIntelligence.Llm.SummaryRoundTrip
import PersonalIntelligence.Llm.JsonText
import PersonalIntelligence.Llm.CutFields
import PersonalIntelligence.Llm.OpenText
import PersonalIntelligence.Llm.SummaryCut
import PersonalIntelligence.Library.Months
import PersonalIntelligence.Tasks.Deadlines
import PersonalIntelligence.Maintenance.Housekeeping
import PersonalIntelligence.Admin.Annotations
import PersonalIntelligence.Admin.LabelFilters
import PersonalIntelligence.Admin.Forms
import PersonalIntelligence.Admin.TagEditing
import PersonalIntelligence.Admin.ChatPages
import PersonalIntelligence.Library.Asyncio
import PersonalIntelligence.Llm.RequestSlots
import PersonalIntelligence.Llm.RequestPermits
import PersonalIntelligence.Entities.Extractor
import PersonalIntelligence.Entities.Mentions
import PersonalIntelligence.Library.LowerCase
import PersonalIntelligence.Persona.Aggregator
import PersonalIntelligence.Persona.ProfileLists
import PersonalIntelligence.Library.Tokens
import PersonalIntelligence.Orchestrator.ToneWords
