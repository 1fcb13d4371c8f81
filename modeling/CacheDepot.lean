import CacheDepot.Api.Service
import CacheDepot.Config.Environment
import CacheDepot.Depot.Timeline
import CacheDepot.Proofs.Api.Presence
import CacheDepot.Proofs.Api.RequestEffects
import CacheDepot.Proofs.Api.Requests
import CacheDepot.Proofs.Api.Service
import CacheDepot.Proofs.Api.Warming
import CacheDepot.Proofs.Depot.AfterTeardown
import CacheDepot.Proofs.Depot.Agreement
import CacheDepot.Proofs.Depot.Directory
import CacheDepot.Proofs.Depot.Durability
import CacheDepot.Proofs.Depot.EveryStore
import CacheDepot.Proofs.Depot.LateReloads
import CacheDepot.Proofs.Depot.Lifetimes
import CacheDepot.Proofs.Depot.Outcomes
import CacheDepot.Proofs.Depot.Periodic
import CacheDepot.Proofs.Depot.PersistOutcomes
import CacheDepot.Proofs.Depot.Reliance
import CacheDepot.Proofs.Depot.Settling
import CacheDepot.Proofs.Depot.SharedQueue
import CacheDepot.Proofs.Depot.Shutdown
import CacheDepot.Proofs.Depot.Teardown
import CacheDepot.Proofs.Depot.Tiers
import CacheDepot.Proofs.Depot.Timeline
import CacheDepot.Proofs.Depot.Unqueued
import CacheDepot.Proofs.Depot.WriteThrough
import CacheDepot.Proofs.Key.Structured
import CacheDepot.Proofs.Recency
import CacheDepot.Proofs.Recency.KeyQueue
import CacheDepot.Proofs.ResponseCache.Encoding
import CacheDepot.Proofs.ResponseCache.Identity
import CacheDepot.Proofs.ResponseCache.Provenance
import CacheDepot.Proofs.ResponseCache.Replay
import CacheDepot.Proofs.ResponseCache.Traffic
import CacheDepot.Proofs.Store.Conservation
import CacheDepot.Proofs.Store.Eviction
import CacheDepot.Proofs.Store.Inclusion
import CacheDepot.Proofs.Store.Isolation
import CacheDepot.Proofs.Store.Refinement
import CacheDepot.Proofs.Store.Sweeping
import CacheDepot.Proofs.Ticker.Calls
import CacheDepot.Proofs.WriteBehind.CallOrder
import CacheDepot.Proofs.WriteBehind.Exclusion
import CacheDepot.Proofs.WriteBehind.Flush
import CacheDepot.Proofs.WriteBehind.FlushAlone
import CacheDepot.Ticker.Schedule
