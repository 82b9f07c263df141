import OpenMemory.Merge.Guarantees.Binding
import OpenMemory.Merge.Guarantees.Conservation
import OpenMemory.Merge.Guarantees.Contradictions
import OpenMemory.Merge.Guarantees.Protocol
import OpenMemory.Merge.Guarantees.OrderIndependence
import OpenMemory.Merge.Guarantees.Verification
import OpenMemory.Merge.Guarantees.Assertions
import OpenMemory.Merge.Guarantees.Provenance
import OpenMemory.Merge.Guarantees.Equivalence
import OpenMemory.Merge.Guarantees.ActionLimit
import OpenMemory.Merge.Guarantees.NameDiscovery
import OpenMemory.Merge.Guarantees.TrustedFacts
import OpenMemory.Engine.Guarantees.TornJournals
import OpenMemory.Engine.Guarantees.Ingestion
import OpenMemory.Engine.Guarantees.Wakeups
import OpenMemory.Engine.Guarantees.SnapshotGate
import OpenMemory.Engine.Guarantees.CacheCoherence
import OpenMemory.Engine.Guarantees.CrashSafeSwap
import OpenMemory.Engine.Guarantees.Rerouting
import OpenMemory.Engine.Guarantees.ManagedSpaces
import OpenMemory.Daemon.Guarantees.SpaceAccounting
import OpenMemory.Daemon.Guarantees.LeasesAndRevocations
import OpenMemory.Daemon.Guarantees.EventStreams
import OpenMemory.Daemon.Guarantees.SchemaMigration
import OpenMemory.Index.Guarantees.QueryCoherence
import OpenMemory.Graph.Guarantees.SameSecond
import OpenMemory.Graph.Guarantees.TombstoneLife
import OpenMemory.Graph.Guarantees.ConservedClaims
import OpenMemory.Graph.Guarantees.ErrorsUnwritten
import OpenMemory.Eval.Guarantees.Verdicts
import OpenMemory.Eval.Guarantees.EqualContracts
import OpenMemory.Eval.Guarantees.MetricLaws
import OpenMemory.Engine.Guarantees.RoutingHash
import OpenMemory.Engine.Guarantees.ListedPages
import OpenMemory.Engine.Guarantees.NotesKept
import OpenMemory.Index.Guarantees.FailedWrites
import OpenMemory.Graph.Guarantees.SpreadCompleteness
import OpenMemory.Graph.Guarantees.PagedCoverage
import OpenMemory.Graph.Guarantees.RevisionChains
import OpenMemory.Engine.Guarantees.ForgottenEntities
import OpenMemory.Graph.Guarantees.RepairedEntries
import OpenMemory.Graph.Guarantees.RequestIdentity
import OpenMemory.Index.Guarantees.FusedRanks
import OpenMemory.Index.Guarantees.FlatFiles
import OpenMemory.Index.Guarantees.Bm25Statistics
import OpenMemory.Index.Guarantees.EscapedQueries
import OpenMemory.Mcp.Guarantees.Successors
import OpenMemory.Mcp.Guarantees.Framing
import OpenMemory.Mcp.Search
import OpenMemory.Daemon.Guarantees.Restores
import OpenMemory.Daemon.Guarantees.AuthorityHistory
import OpenMemory.Daemon.Guarantees.WorkspaceMap
import OpenMemory.Merge.Guarantees.Encodings
import OpenMemory.Merge.ThreeWay
import OpenMemory.Watch.Globs
import OpenMemory.Core.TextForms
