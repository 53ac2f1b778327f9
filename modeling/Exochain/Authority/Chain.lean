/-
**`exo-authority` — delegation links and the payload that is signed.**

A link grants a scope from a delegator to a delegate. Its payload is a plain concatenation: the two
identifiers, the debug names of the permissions, the times and the depth as fixed-width numbers, the
expiry only where there is one, and the debug rendering of the delegatee's kind. No field carries a
length and none is closed by a separator.

The rendering of a string escapes quotes, backslashes, control characters and whatever the table of
printable characters of the standard library leaves out; the table is a parameter.
-/

import Exochain.Foundation.Codes
import Exochain.Core.Types

set_option linter.unusedSectionVars false

namespace Exochain.ExoAuthority

open Foundation ExoCore

/-! ### Permissions -/

/-- The permissions of the authority model. -/
inductive Permission where
  | read
  | write
  | execute
  | delegate
  | govern
  | escalate
  | challenge
  deriving DecidableEq, Repr

/-- The debug rendering of a permission. -/
def Permission.debug : Permission → String
  | .read => "Read"
  | .write => "Write"
  | .execute => "Execute"
  | .delegate => "Delegate"
  | .govern => "Govern"
  | .escalate => "Escalate"
  | .challenge => "Challenge"

/-! ### The kind of a delegatee -/

/-- What a delegatee is. -/
inductive DelegateeKind where
  | human
  | aiAgent (modelId : String)
  | unknown
  deriving DecidableEq, Repr

section Debug

variable (printable : Char → Bool)

/-- The characters with a two-character escape in the debug rendering of a string. -/
def letterEscapes : List (Char × Char) :=
  [('\x00', '0'), ('\t', 't'), ('\r', 'r'), ('\n', 'n'), ('\\', '\\'), ('"', '"')]

/-- One character in the debug rendering of a string. -/
def escapeDebug (c : Char) : List Char :=
  match letterEscapes.lookup c with
  | some letter => ['\\', letter]
  | none =>
    if printable c then [c] else ['\\', 'u', '\x7b'] ++ Nat.toDigits 16 c.toNat ++ ['\x7d']

/-- The debug rendering of a string, between quotes. -/
def debugString (text : String) : String :=
  "\"" ++ String.ofList (text.toList.flatMap (escapeDebug printable)) ++ "\""

/-- The debug rendering of a kind. -/
def DelegateeKind.debug : DelegateeKind → String
  | .human => "Human"
  | .aiAgent modelId => "AiAgent \x7b model_id: " ++ debugString printable modelId ++ " \x7d"
  | .unknown => "Unknown"

end Debug

/-! ### Links -/

/-- A single link of an authority chain. The depth is a `usize` of a 64-bit target. -/
structure AuthorityLink where
  delegatorDid : Did
  delegateDid : Did
  scope : List Permission
  created : Timestamp
  expires : Option Timestamp
  signature : Signature
  depth : UInt64
  delegateeKind : DelegateeKind
  deriving DecidableEq

namespace AuthorityLink

variable (printable : Char → Bool)

/-- The payload that the delegator signs. -/
def signablePayload (link : AuthorityLink) : List UInt8 :=
  link.delegatorDid.asBytes ++ link.delegateDid.asBytes ++
    link.scope.flatMap (fun p => textBytes p.debug) ++ link.created.toLeBytes ++
    leBytes 8 link.depth.toNat ++
    (match link.expires with
      | some exp => exp.toLeBytes
      | none => []) ++
    textBytes (link.delegateeKind.debug printable)

/-- The identifier of a link. -/
def id (blake3 : Blake3) (link : AuthorityLink) : Hash256 :=
  Hash256.digest blake3 (link.signablePayload printable)

end AuthorityLink

end Exochain.ExoAuthority
