/-
**`exo-governance` — errors and signatures.**

The error type that the operations of the crate share, and the signature with the identity and the kind
of its signer.
-/

import Exochain.Core.Types

namespace Exochain.ExoGovernance

open Foundation ExoCore

/-- The errors of governance. -/
inductive GovernanceError where
  | quorumNotMet (reason : String)
  | insufficientIndependence (details : String)
  | clearanceDenied (required : String)
  | challengeError (reason : String)
  | deliberationError (reason : String)
  | auditChainBroken (index : ℕ)
  | duplicateVote (voter : String)
  | deliberationNotOpen
  | actionNotFound (action : String)
  | caseNotFound (case : String)
  | invalidStateTransition (source target : String)
  deriving DecidableEq, Repr

/-- Who signed: a human, or an agent under a delegation. -/
inductive SignerType where
  | human
  | aiAgent (delegationId : Hash256) (expiresAt : UInt64)
  deriving DecidableEq

/-- A signature with its signer. -/
structure GovernanceSignature where
  signer : Did
  signerType : SignerType
  signature : Signature
  keyVersion : UInt64
  timestamp : Timestamp
  deriving DecidableEq

end Exochain.ExoGovernance
