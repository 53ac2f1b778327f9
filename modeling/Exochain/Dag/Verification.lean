/-
**Verification of nodes against the graph.**

`verify_node` checks a node that is handed in: the form of its parent list, its hash, its parents, its
signature and, last, that it is not among its own ancestors.

* `verifyNode_cases` — what the checks answer on a well-formed graph.
* **`verification_exact`** — on every graph that `append` builds a node passes exactly if it meets the first
  four checks; the search for a cycle finds none.
* **`stored_verify_iff`** — every stored node passes in every state of a run exactly if the verifier accepts
  what the successful calls sign.
-/

import Exochain.Dag.Ancestors

set_option linter.unusedSectionVars false

namespace Exochain.ExoDag

open Foundation ExoCore

/-- Verify a node against the graph. A parent list out of order and a wrong hash are reported as a wrong
signature. The fuel bounds the rounds of the search for ancestors. -/
def verifyNode (fuel : ℕ) (blake3 : Blake3) (dag : Dag) (node : DagNode)
    (verifyFn : List UInt8 → Signature → Bool) : Option (Except DagError Unit) :=
  if sortDedup node.parents ≠ node.parents then some (.error (.invalidSignature node.hash))
  else if node.recomputedHash blake3 ≠ node.hash then some (.error (.invalidSignature node.hash))
  else match node.parents.find? (fun parent => !dag.nodes.contains parent) with
    | some missing => some (.error (.parentNotFound missing))
    | none =>
      if verifyFn node.hash.asBytes node.signature = false then some (.error (.invalidSignature node.hash))
      else if node.parents.isEmpty then some (.ok ())
      else do
        let ancs ← ancestors fuel dag node.hash
        if node.hash ∈ ancs then return .error (.cycleDetected node.hash) else return .ok ()

section Checks

variable {blake3 : Blake3} {dag : Dag} {node : DagNode} {verifyFn : List UInt8 → Signature → Bool}

/-- A node that fits into the graph. -/
structure Verified (blake3 : Blake3) (dag : Dag) (verifyFn : List UInt8 → Signature → Bool)
    (node : DagNode) : Prop where
  ascending : node.parents.Pairwise (· < ·)
  hashed : node.recomputedHash blake3 = node.hash
  parents_stored : ∀ parent ∈ node.parents, parent ∈ dag.nodes
  signed : verifyFn node.hash.asBytes node.signature = true

/-- What a node is rejected with: a wrong signature, or a parent of its own that is not stored. -/
def Rejects (dag : Dag) (node : DagNode) (error : DagError) : Prop :=
  error = .invalidSignature node.hash ∨
    ∃ missing ∈ node.parents, missing ∉ dag.nodes ∧ error = .parentNotFound missing

theorem Rejects.ne_cycleDetected {error : DagError} (reason : Rejects dag node error) {hash : Hash256} :
    error ≠ .cycleDetected hash := by
  rcases reason with rfl | ⟨missing, _, _, rfl⟩
  · exact fun same => nomatch same
  · exact fun same => nomatch same

/-- **What the checks answer** on a well-formed graph: the node passes and fits, or it is rejected for one of
the first four and does not. -/
theorem verifyNode_cases (wellFormed : dag.WellFormed blake3) {fuel : ℕ}
    (enough : dag.nodes.size < fuel) :
    (verifyNode fuel blake3 dag node verifyFn = some (.ok ()) ∧ Verified blake3 dag verifyFn node) ∨
    (∃ error, verifyNode fuel blake3 dag node verifyFn = some (.error error) ∧ Rejects dag node error ∧
      ¬ Verified blake3 dag verifyFn node) := by
  unfold verifyNode
  by_cases ascending : sortDedup node.parents = node.parents
  · rw [if_neg (not_not.mpr ascending)]
    by_cases hashed : node.recomputedHash blake3 = node.hash
    · rw [if_neg (not_not.mpr hashed)]
      cases search : node.parents.find? (fun parent => !dag.nodes.contains parent) with
      | some missing =>
        have parent : missing ∈ node.parents := List.mem_of_find?_eq_some search
        have absent : missing ∉ dag.nodes := by
          intro stored
          have found := List.find?_some search
          rw [Std.ExtTreeMap.contains_iff_mem.mpr stored] at found
          exact nomatch found
        exact .inr ⟨_, rfl, .inr ⟨missing, parent, absent, rfl⟩,
          fun verified => absent (verified.parents_stored missing parent)⟩
      | none =>
        have stored : ∀ parent ∈ node.parents, parent ∈ dag.nodes := by
          intro parent member
          simpa using List.find?_eq_none.mp search parent member
        dsimp only
        by_cases signed : verifyFn node.hash.asBytes node.signature = true
        · have verified : Verified blake3 dag verifyFn node :=
            ⟨sortDedup_eq_self_iff.mp ascending, hashed, stored, signed⟩
          refine .inl ⟨?_, verified⟩
          rw [if_neg (by rw [signed]; exact Bool.noConfusion)]
          split
          · rfl
          · -- no stored hash is its own ancestor, and a hash that is not stored has no ancestors
            obtain ⟨order, listed, ordered⟩ := wellFormed.ancestors_ordered enough node.hash
            have apart : node.hash ∉ order := fun member =>
              wellFormed.acyclic node.hash ((ordered.exact node.hash).mp member).2
            rw [listed]
            exact if_neg apart
        · exact .inr ⟨_, if_pos (Bool.eq_false_iff.mpr signed), .inl rfl,
            fun verified => signed verified.signed⟩
    · rw [if_pos hashed]
      exact .inr ⟨_, rfl, .inl rfl, fun verified => hashed verified.hashed⟩
  · rw [if_pos ascending]
    exact .inr ⟨_, rfl, .inl rfl,
      fun verified => ascending (sortDedup_eq_self_iff.mpr verified.ascending)⟩

theorem verifyNode_eq_ok_iff (wellFormed : dag.WellFormed blake3) {fuel : ℕ}
    (enough : dag.nodes.size < fuel) :
    verifyNode fuel blake3 dag node verifyFn = some (.ok ()) ↔ Verified blake3 dag verifyFn node := by
  rcases verifyNode_cases wellFormed enough with
    ⟨passes, verified⟩ | ⟨error, rejected, _, unverified⟩
  · exact iff_of_true passes verified
  · exact iff_of_false (fun passes => nomatch passes.symm.trans rejected) unverified

/-- **Verification is exact**: on every graph that calls of `append` build from the empty one, and for every
node, stored or not, the checks end with an answer, which is a pass exactly if the node fits into the graph,
and otherwise tells of a wrong signature or of a parent that is not stored, never of a cycle. -/
theorem verification_exact (build : Build) (blake3 : Blake3) (calls : List AppendCall) (node : DagNode)
    (verifyFn : List UInt8 → Signature → Bool) {fuel : ℕ}
    (enough : (run (appendStep build blake3) Dag.new calls).nodes.size < fuel) :
    ∃ answer,
      verifyNode fuel blake3 (run (appendStep build blake3) Dag.new calls) node verifyFn = some answer ∧
      (answer = .ok () ↔ Verified blake3 (run (appendStep build blake3) Dag.new calls) verifyFn node) ∧
      (∀ error, answer = .error error →
        Rejects (run (appendStep build blake3) Dag.new calls) node error) ∧
      ∀ hash, answer ≠ .error (.cycleDetected hash) := by
  have wellFormed := (throughout_of_preserved (wellFormed_appendStep build blake3)
    Dag.wellFormed_new calls).last
  rcases verifyNode_cases wellFormed enough with
    ⟨passes, verified⟩ | ⟨error, rejected, reason, unverified⟩
  · exact ⟨_, passes, iff_of_true rfl verified, (fun _ same => nomatch same), fun _ same => nomatch same⟩
  · refine ⟨_, rejected, iff_of_false (fun same => nomatch same) unverified, ?_, ?_⟩
    · rintro _ ⟨⟩
      exact reason
    · rintro hash ⟨⟩
      exact reason.ne_cycleDetected rfl

/-! ### The stored nodes over a run -/

/-- Every stored node passes. -/
def AllVerify (blake3 : Blake3) (verifyFn : List UInt8 → Signature → Bool) (dag : Dag) : Prop :=
  ∀ (hash : Hash256) node, dag.nodes[hash]? = some node →
    ∀ fuel > dag.nodes.size, verifyNode fuel blake3 dag node verifyFn = some (.ok ())

/-- The verifier accepts what the call signs if it succeeds. -/
def SignsFor (build : Build) (blake3 : Blake3) (verifyFn : List UInt8 → Signature → Bool) (dag : Dag)
    (call : AppendCall) : Prop :=
  ∀ node after clock, append build blake3 dag call = .ok (.ok node, after, clock) →
    verifyFn node.hash.asBytes (call.signFn node.hash.asBytes) = true

/-- A stored node passes exactly if its signature is accepted. -/
theorem allVerify_iff (wellFormed : dag.WellFormed blake3) :
    AllVerify blake3 verifyFn dag ↔ ∀ (hash : Hash256) node, dag.nodes[hash]? = some node →
      verifyFn node.hash.asBytes node.signature = true := by
  refine forall_congr' fun hash => forall_congr' fun node => imp_congr_right fun found => ?_
  constructor
  · intro passes
    exact ((verifyNode_eq_ok_iff wellFormed (Nat.lt_succ_self _)).mp (passes _ (Nat.lt_succ_self _))).signed
  · intro signed fuel enough
    obtain ⟨keyed, hashed⟩ := wellFormed.hash_key hash node found
    refine (verifyNode_eq_ok_iff wellFormed enough).mpr
      ⟨wellFormed.parents_sorted hash node found, hashed.trans keyed.symm, fun parent listed => ?_, signed⟩
    exact wellFormed.parents_stored parent hash ⟨node, found, listed⟩

/-- **One call** keeps every stored node passing exactly if the verifier accepts what it signs. -/
theorem allVerify_appendStep_iff (build : Build) (blake3 : Blake3) (dag : Dag) (call : AppendCall)
    (wellFormed : dag.WellFormed blake3) (here : AllVerify blake3 verifyFn dag) :
    AllVerify blake3 verifyFn (appendStep build blake3 dag call) ↔
      SignsFor build blake3 verifyFn dag call := by
  have signed := (allVerify_iff wellFormed).mp here
  rw [allVerify_iff (wellFormed_appendStep build blake3 dag call wellFormed)]
  unfold appendStep SignsFor
  rcases append_cases build blake3 dag call with
    ⟨fault, answer⟩ | ⟨error, clock, answer⟩ | ⟨node, clock, answer, stored⟩
  · rw [answer]
    exact iff_of_true signed fun _ _ _ same => nomatch same
  · rw [answer]
    refine iff_of_true signed fun _ _ _ same => ?_
    exact nomatch (Prod.ext_iff.mp (Except.ok.inj same)).1
  · rw [answer]
    obtain ⟨timestamp, made⟩ := stored.made
    have own : node.signature = call.signFn node.hash.asBytes := by
      rw [made]
      rfl
    constructor
    · intro after node' dag' clock' same
      cases same
      rw [← own]
      exact after node.hash node (by rw [Dag.getElem?_nodes_store, if_pos rfl])
    · intro accepted hash other found
      rw [Dag.getElem?_nodes_store] at found
      split at found
      · cases found
        rw [own]
        exact accepted node _ _ rfl
      · exact signed hash other found

/-- **Every stored node passes in every state of a run** of `append` calls, failing ones included, exactly if
the verifier accepts what each successful call signs. -/
theorem stored_verify_iff (build : Build) (blake3 : Blake3) (verifyFn : List UInt8 → Signature → Bool)
    (calls : List AppendCall) :
    Throughout (appendStep build blake3) (AllVerify blake3 verifyFn) Dag.new calls ↔
      Along (appendStep build blake3) (SignsFor build blake3 verifyFn) Dag.new calls := by
  refine throughout_iff_along (wellFormed_appendStep build blake3)
    (fun dag call => allVerify_appendStep_iff build blake3 dag call) Dag.wellFormed_new ?_
  intro hash node found
  exact nomatch Std.ExtTreeMap.getElem?_empty.symm.trans found

end Checks

namespace Diamond

/-- The bottom of the diamond, its parents listed backwards. -/
def swapped : DagNode := { bottom.nodeAt Blake3.hash ⟨0, 1⟩ with parents := [hashOf right, hashOf left] }

/-- A verifier that accepts everything. -/
def acceptAll : List UInt8 → Signature → Bool := fun _ _ => true

/-- The answer on it is exact. -/
theorem verification_exact_swapped :
    ∃ answer, verifyNode 5 Blake3.hash dag swapped acceptAll = some answer ∧
      (answer = .ok () ↔ Verified Blake3.hash dag acceptAll swapped) ∧
      (∀ error, answer = .error error → Rejects dag swapped error) ∧
      ∀ hash, answer ≠ .error (.cycleDetected hash) :=
  verification_exact ⟨true⟩ Blake3.hash [top, left, right, bottom] swapped acceptAll (by decide +kernel)

end Diamond

end Exochain.ExoDag
