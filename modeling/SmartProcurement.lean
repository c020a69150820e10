import SmartProcurement.Ai.Calls
import SmartProcurement.Analysis.ComposedRuns
import SmartProcurement.Analysis.ConcurrentDetection
import SmartProcurement.Analysis.Dismissal
import SmartProcurement.Analysis.Isolation
import SmartProcurement.Analysis.MonotoneSeverity
import SmartProcurement.Analysis.OverdueOrders
import SmartProcurement.Analysis.PastDemands
import SmartProcurement.Analysis.PriceJumps
import SmartProcurement.Analysis.TiedRows
import SmartProcurement.Analysis.TrustedStock
import SmartProcurement.Analysis.Unbroken
import SmartProcurement.Analysis.WarehouseCover
import SmartProcurement.Domain.MapRows
import SmartProcurement.Identity.Provenance
import SmartProcurement.Identity.RefreshTokens
import SmartProcurement.Identity.SeedRuns
import SmartProcurement.Integration.Baselines
import SmartProcurement.Integration.BulkConfirm
import SmartProcurement.Integration.ConcurrentSync
import SmartProcurement.Integration.Connectors.File
import SmartProcurement.Integration.Connectors.Flattening
import SmartProcurement.Integration.Connectors.Sql
import SmartProcurement.Integration.DeadSources
import SmartProcurement.Integration.FiniteMap
import SmartProcurement.Integration.GroundedSuggestions
import SmartProcurement.Integration.LostStock
import SmartProcurement.Integration.MappingOrder
import SmartProcurement.Integration.MappingRetirement
import SmartProcurement.Integration.RecordOrder
import SmartProcurement.Integration.ReferenceCache
import SmartProcurement.Integration.ScopedRecompute
import SmartProcurement.Integration.Secrecy
import SmartProcurement.Integration.SourceHealth
import SmartProcurement.Integration.UnreadableValues
import SmartProcurement.Lorm.Decisions
import SmartProcurement.Lorm.Refusals
import SmartProcurement.Observation.ConcurrentGaps
import SmartProcurement.Worker.Batches
import SmartProcurement.Worker.Chaining
import SmartProcurement.Worker.Explanations
import SmartProcurement.Worker.FailSafe
import SmartProcurement.Worker.Interleavings
import SmartProcurement.Worker.Observations
