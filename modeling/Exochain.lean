import Exochain.Foundation.Machine
import Exochain.Foundation.Run
import Exochain.Foundation.Specification
import Exochain.Foundation.Attempts
import Exochain.Foundation.ReadModifyWrite
import Exochain.Foundation.Search
import Exochain.Foundation.Walks
import Exochain.Foundation.Traversal
import Exochain.Foundation.Collections
import Exochain.Foundation.Shelves
import Exochain.Foundation.OrderStatistics
import Exochain.Foundation.Eviction
import Exochain.Foundation.Pruning
import Exochain.Foundation.Overlay
import Exochain.Foundation.RoundRobin
import Exochain.Foundation.LogicalClock
import Exochain.Foundation.Paging
import Exochain.Foundation.Blake3
import Exochain.Foundation.Sha256
import Exochain.Foundation.Merkle
import Exochain.Foundation.MountainRange
import Exochain.Foundation.HashChain
import Exochain.Foundation.Pairing
import Exochain.Foundation.Codes
import Exochain.Foundation.SelfDelimiting
import Exochain.Foundation.Bytes
import Exochain.Foundation.Interpolation
import Exochain.Foundation.Alike
import Exochain.Core.Types
import Exochain.Core.Hlc
import Exochain.Core.ClockNetwork
import Exochain.Core.Hash
import Exochain.Core.Cbor
import Exochain.Core.CborReading
import Exochain.Core.Events
import Exochain.Core.MerkleBinding
import Exochain.Core.MerkleProofs
import Exochain.Core.Bcts
import Exochain.Core.BctsHistory
import Exochain.Core.BctsEvidence
import Exochain.Core.Invariants
import Exochain.Dag.Graph
import Exochain.Dag.Invariant
import Exochain.Dag.Preimage
import Exochain.Dag.Consensus
import Exochain.Dag.VoteLedger
import Exochain.Dag.Agreement
import Exochain.Dag.Store
import Exochain.Dag.ValidatedAppend
import Exochain.Dag.Replica
import Exochain.Dag.Causality
import Exochain.Dag.Ancestors
import Exochain.Dag.Verification
import Exochain.Dag.Mmr
import Exochain.Dag.MmrTrees
import Exochain.Dag.MmrLayout
import Exochain.Dag.MmrProofs
import Exochain.Dag.MmrBinding
import Exochain.Dag.Smt
import Exochain.Dag.SmtTrees
import Exochain.Dag.SmtProofs
import Exochain.Dag.Checkpoint
import Exochain.Authority.Chain
import Exochain.Authority.Payload
import Exochain.Authority.Verify
import Exochain.Authority.Registry
import Exochain.Authority.FindChain
import Exochain.Authority.Cache
import Exochain.Identity.Error
import Exochain.Identity.Gf256
import Exochain.Identity.Shamir
import Exochain.Identity.KeyManagement
import Exochain.Identity.DidVerification
import Exochain.Identity.DidRegistry
import Exochain.Identity.Risk
import Exochain.Identity.Pace
import Exochain.Gatekeeper.Invariants
import Exochain.Gatekeeper.Kernel
import Exochain.Gatekeeper.Combinator
import Exochain.Gatekeeper.Parallel
import Exochain.Gatekeeper.Checkpoints
import Exochain.Gatekeeper.Simulation
import Exochain.Gatekeeper.Flattening
import Exochain.Gatekeeper.Instrumentation
import Exochain.Gatekeeper.Holon
import Exochain.Gatekeeper.HolonLifecycle
import Exochain.Gatekeeper.McpAudit
import Exochain.Gatekeeper.Mcp
import Exochain.Gatekeeper.Protocols
import Exochain.Gatekeeper.CircuitBreaker
import Exochain.Gatekeeper.Approval
import Exochain.Governance.Types
import Exochain.Governance.Audit
import Exochain.Governance.Custody
import Exochain.Governance.CustodyAppend
import Exochain.Governance.Quorum
import Exochain.Governance.Crosscheck
import Exochain.Governance.Coordination
import Exochain.Governance.Deliberation
import Exochain.Governance.Conflict
import Exochain.Governance.Acknowledgment
import Exochain.Forum.DecisionObject
import Exochain.Forum.ContentHash
import Exochain.Forum.Quorum
import Exochain.Forum.Tally
import Exochain.Forum.HumanGate
import Exochain.Forum.Emergency
import Exochain.Forum.Constitution
import Exochain.Forum.AuthorityMatrix
import Exochain.Forum.FiduciaryPackage
import Exochain.Forum.Precondition
import Exochain.Forum.Ratification
import Exochain.Forum.Purge
import Exochain.Forum.Metrics
import Exochain.Forum.Accountability
import Exochain.Forum.Contestation
import Exochain.Forum.TncEnforcer
import Exochain.Forum.Workflow
import Exochain.Consent.Policy
import Exochain.Consent.Bailment
import Exochain.Consent.Gatekeeper
import Exochain.Proofs.Circuit
import Exochain.Proofs.Snark
import Exochain.Proofs.Stark
import Exochain.Proofs.StarkArithmetic
import Exochain.Proofs.Zkml
import Exochain.Tenant.Store
import Exochain.Tenant.Management
import Exochain.Legal.Error
import Exochain.Legal.Dgcl144
import Exochain.Legal.ComplianceReport
import Exochain.Legal.Evidence
import Exochain.Legal.Records
import Exochain.Escalation.Sybil
import Exochain.Escalation.Kanban
import Exochain.Escalation.Response
import Exochain.Bcts.Transaction
import Exochain.Bcts.Pipeline
import Exochain.Bcts.Comparison
import Exochain.Gateway.Graphql
import Exochain.Gateway.AuditTrail
import Exochain.Gateway.Constitution
import Exochain.Gateway.Routes
import Exochain.Gateway.Queries
import Exochain.Api.P2p
import Exochain.Api.Selection
import Exochain.Api.Mesh
import Exochain.Demo.AuditApi
import Exochain.Demo.GatewayApi
import Exochain.Tla.DecisionLifecycle
import Exochain.Tla.QuorumSafety
import Exochain.Tla.AuditLog
import Exochain.Tla.AuthorityChain
