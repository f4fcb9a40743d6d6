import M1nd.Mcp.AuthorityWal.Rollback
import M1nd.Control.Autonomy.Quorum
import M1nd.Mcp.OwnerFinalization.AbortSafety
import M1nd.Mcp.OwnerFinalization.CommitOnce
import M1nd.Control.AuthorityWal.Digests
import M1nd.Control.Mission.Theorems
import M1nd.Control.ReplayLedger.History
import M1nd.Mcp.RuntimeJobs.ReplaysLive
import M1nd.Control.ActionPolicy.Theorems
import M1nd.Mcp.AuthorityWal.AllOrPoison
import M1nd.Core.QueryMemory
import M1nd.Core.Plasticity.Inflow
import M1nd.Core.Plasticity.Transfer
import M1nd.Core.Temporal.Persistence
import M1nd.Core.Layer.Acyclic
import M1nd.Core.Velocity
import M1nd.Core.RuntimeOverlay.Runs
import M1nd.Core.Community.Theorems
import M1nd.Core.CausalChain.Theorems
import M1nd.Core.Impact.Theorems
import M1nd.Mcp.Mailbox.Theorems
import M1nd.Core.Tremor.Window
import M1nd.Mcp.Transplant.QualifiedPaths
import M1nd.Mcp.Transplant.Dependencies
import M1nd.Mcp.CheckpointStore.Paths
import M1nd.Mcp.LockHandlers.Theorems
import M1nd.Ingest.Merge.Claims
import M1nd.Core.Trust.Theorems
import M1nd.Core.Counterfactual.Theorems
import M1nd.Core.Flow.Theorems
import M1nd.Core.Calibration
import M1nd.Ingest.Ownership.Theorems
import M1nd.Core.Taint.Theorems
import M1nd.Core.Antibody.Theorems
import M1nd.Core.Snapshot.Accepted
