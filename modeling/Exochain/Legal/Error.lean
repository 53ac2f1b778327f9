/-
**`exo-legal` — errors.**

The one error type of the crate, with its texts.
-/

import Exochain.Core.Types

namespace Exochain.ExoLegal

open Foundation ExoCore

/-- The errors of the legal operations. -/
inductive LegalError where
  | evidenceNotFound (id : Uuid)
  | custodyChainBroken (index : ℕ)
  | custodyTransferFailed (reason : String)
  | notAdmissible (reason : String)
  | privilegeInvalid (reason : String)
  | privilegeAlreadyAsserted (id : Uuid)
  | fiduciaryViolation (reason : String)
  | discoveryScopeTooBoard (reason : String)
  | retentionViolation (reason : String)
  | disclosureRequired (action : String)
  | conflictOfInterest (reason : String)
  | recordNotFound (id : Uuid)
  | invalidStateTransition (reason : String)
  deriving DecidableEq

/-- The text of an error. -/
def LegalError.display : LegalError → String
  | .evidenceNotFound id => "evidence not found: " ++ id.display
  | .custodyChainBroken index => "chain of custody broken at transfer index " ++ toString index
  | .custodyTransferFailed reason => "custody transfer failed: " ++ reason
  | .notAdmissible reason => "evidence is not admissible: " ++ reason
  | .privilegeInvalid reason => "privilege assertion invalid: " ++ reason
  | .privilegeAlreadyAsserted id => "privilege already asserted for evidence " ++ id.display
  | .fiduciaryViolation reason => "fiduciary duty violation: " ++ reason
  | .discoveryScopeTooBoard reason => "discovery scope too broad: " ++ reason
  | .retentionViolation reason => "retention policy violation: " ++ reason
  | .disclosureRequired action => "disclosure required for action: " ++ action
  | .conflictOfInterest reason => "conflict of interest: " ++ reason
  | .recordNotFound id => "record not found: " ++ id.display
  | .invalidStateTransition reason => "invalid state transition: " ++ reason

end Exochain.ExoLegal
