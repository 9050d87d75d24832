import HandleTable.Main
import HandleTable.Memory
import HandleTable.Proofs.Handles.Ledger
import HandleTable.Proofs.Handles.Renaming
import HandleTable.Proofs.Handles.StrictRecency
import HandleTable.Proofs.Handles.IndependentRenames
import HandleTable.Proofs.Verifiers.Coherence
import HandleTable.Proofs.Verifiers.LargerTable
import HandleTable.Proofs.Verifiers.LatestSnapshot
import HandleTable.Proofs.Verifiers.Invalidation
import HandleTable.Proofs.Handles.SharedPaths
import HandleTable.Proofs.Handles.Pinning
import HandleTable.Proofs.Handles.LargerTable
import HandleTable.Proofs.Recency.CallLog
import HandleTable.Proofs.Recency.Eviction
import HandleTable.Proofs.Host.Following
import HandleTable.Proofs.Host.Confinement
import HandleTable.Proofs.Walk.Reading
import HandleTable.Proofs.Walk.Agreement
import HandleTable.Proofs.Walk.PageSize
import HandleTable.Proofs.Walk.Recounting
import HandleTable.Proofs.Server.Parts
import HandleTable.Proofs.Walk.Loops
import HandleTable.Proofs.Walk.Visits
import HandleTable.Proofs.Walk.Accounts
import HandleTable.Proofs.Walk.Whereabouts
import HandleTable.Proofs.Walk.Evictions
import HandleTable.Proofs.Walk.Visited
import HandleTable.Proofs.Host.Walked
import HandleTable.Proofs.Handles.ResolveOrder
import HandleTable.Proofs.Handles.RenamedSubtree
import HandleTable.Proofs.Handles.RenameBack
import HandleTable.Proofs.Handles.Refusal
import HandleTable.Proofs.Host.Acceptance
import HandleTable.Proofs.Listing.Order
import HandleTable.Proofs.Host.Enumeration
import HandleTable.Proofs.Host.Asked
import HandleTable.Proofs.Config.Schema
import HandleTable.Proofs.Config.RoundTrip
import HandleTable.Proofs.Walk.WordSize
