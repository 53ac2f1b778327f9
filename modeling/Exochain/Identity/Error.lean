/-
**`exo-identity` — errors.**

The one error type of the crate, with its texts; the errors of the vault are left out.
-/

import Exochain.Core.Types

namespace Exochain.ExoIdentity

open Foundation ExoCore

/-- The errors of the identity operations. -/
inductive IdentityError where
  | duplicateDid (did : Did)
  | didNotFound (did : Did)
  | didRevoked (did : Did)
  | invalidSignature
  | invalidRevocationProof (did : Did)
  | keyNotFound (did : Did)
  | keyAlreadyRevoked
  | keyAlreadyRotated
  | invalidShamirConfig (threshold shares : UInt8)
  | insufficientShares (need got : UInt8)
  | invalidShareIndex (index : UInt8)
  | duplicateShareIndices
  | invalidPaceConfig (reason : String)
  | cannotEscalate
  | cannotDeescalate
  | attestationExpired
  | duplicatePaceDid (did : Did)
  deriving DecidableEq, Repr

/-- The text of an error. -/
def IdentityError.display : IdentityError → String
  | .duplicateDid did => "DID already registered: " ++ did.value
  | .didNotFound did => "DID not found: " ++ did.value
  | .didRevoked did => "DID has been revoked: " ++ did.value
  | .invalidSignature => "invalid signature"
  | .invalidRevocationProof did => "invalid revocation proof for DID: " ++ did.value
  | .keyNotFound did => "public key not found on DID: " ++ did.value
  | .keyAlreadyRevoked => "key already revoked"
  | .keyAlreadyRotated => "key already rotated"
  | .invalidShamirConfig threshold shares =>
    "invalid Shamir config: threshold=" ++ toString threshold ++ ", shares=" ++ toString shares
  | .insufficientShares need got =>
    "insufficient shares: need " ++ toString need ++ ", got " ++ toString got
  | .invalidShareIndex index => "invalid share index: " ++ toString index
  | .duplicateShareIndices => "duplicate share indices"
  | .invalidPaceConfig reason => "invalid PACE config: " ++ reason
  | .cannotEscalate => "cannot escalate: already at maximum level"
  | .cannotDeescalate => "cannot de-escalate: already at Normal"
  | .attestationExpired => "risk attestation expired"
  | .duplicatePaceDid did => "duplicate DID across PACE levels: " ++ did.value

end Exochain.ExoIdentity
